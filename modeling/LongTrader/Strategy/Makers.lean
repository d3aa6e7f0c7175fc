import LongTrader.Strategy.Quoting
import Mathlib.Algebra.Order.Archimedean.Basic
import Mathlib.Algebra.Order.Field.Basic
import Mathlib.Tactic.FieldSimp
import Mathlib.Tactic.Linarith
import Mathlib.Tactic.Ring

/-! What the quoting strategies have resting at the venue: never parts of two plans, and never a bid at or
above an ask of their own, just if their configuration keeps the two sides apart. -/

namespace LongTrader.Strategy.Quoting

open Requote Indicators

/-- Every bid is below every ask. -/
def Uncrossed (legs : List Leg) : Prop :=
  ∀ bid ∈ legs, ∀ ask ∈ legs, bid.isBuy = true → ask.isBuy = false → bid.price < ask.price

theorem uncrossed_twoSided {bid bidQty ask askQty : ℚ} :
    Uncrossed (twoSided bid bidQty ask askQty) ↔ bid < ask := by
  simp [Uncrossed, twoSided]

/-- A book with one level on each side. -/
def bookOf (bid ask : ℚ) : OrderBook := ⟨[⟨some (.ok bid), some (.ok bid)⟩], [⟨some (.ok ask), some (.ok ask)⟩]⟩

/-- A poll that shows a mid of one and some book, of a venue that accepts everything. -/
def openPoll (book : OrderBook) : MarketPoll := ⟨.ok (some (.ok 1)), .ok book, .ok 0, .ok [], ⟨true, fun _ => true⟩⟩

/-- A poll that shows a mid, of a venue that accepts everything. -/
def priced (mid : ℚ) : MarketPoll := { openPoll ⟨[], []⟩ with ticker := .ok (some (.ok mid)) }

theorem currentMid_priced {mid : ℚ} (positive : 0 < mid) : currentMid (priced mid).ticker = some mid :=
  if_pos positive

theorem abs_ratio_lt {first second : ℚ} (bidSide : 0 < first) (askSide : 0 < second) :
    |(first - second) / (first + second)| < 1 := by
  have total : 0 < first + second := add_pos bidSide askSide
  rw [abs_div, abs_of_pos total, div_lt_one total, abs_lt]
  constructor <;> linarith

section FixedMaker

/-- The two spreads are not both zero. -/
def FixedMakerConfig.Apart (config : FixedMakerConfig) : Prop := config.bidSpread ≠ 0 ∨ config.askSpread ≠ 0

theorem FixedMakerConfig.plan_eq_some {config : FixedMakerConfig} {poll : MarketPoll} {legs : List Leg} :
    config.plan poll = some legs ↔ ∃ mid, currentMid poll.ticker = some mid ∧ 0 < mid ∧
      0 ≤ config.bidSpread ∧ 0 ≤ config.askSpread ∧
      legs = twoSided (mid * (1 - config.bidSpread)) config.qty (mid * (1 + config.askSpread)) config.qty := by
  simp only [FixedMakerConfig.plan, planQuotes, Option.bind_eq_bind, Option.bind_eq_some_iff, Option.pure_def,
    Option.some.injEq]
  constructor
  · rintro ⟨mid, read, quotes, planned, rfl⟩
    split at planned
    · cases planned
    · rename_i proper
      obtain rfl := Option.some.inj planned
      simp only [not_or, not_le, not_lt] at proper
      exact ⟨mid, read, proper.1, proper.2.1, proper.2.2, rfl⟩
  · rintro ⟨mid, read, positive, bid, ask, rfl⟩
    refine ⟨mid, read, _, if_neg ?_, rfl⟩
    simp [positive, bid, ask]

theorem FixedMakerConfig.uncrossed_iff (config : FixedMakerConfig) :
    (∀ poll legs, config.plan poll = some legs → Uncrossed legs) ↔ config.Apart := by
  constructor
  · intro uncrossed
    by_contra together
    simp only [FixedMakerConfig.Apart, not_or, not_not] at together
    have planned : config.plan (openPoll ⟨[], []⟩) = some (twoSided 1 config.qty 1 config.qty) := by
      apply FixedMakerConfig.plan_eq_some.mpr
      exact ⟨1, rfl, one_pos, together.1.ge, together.2.ge, by simp [together.1, together.2]⟩
    have apart := uncrossed_twoSided.mp (uncrossed _ _ planned)
    exact absurd apart (lt_irrefl _)
  · intro apart poll legs planned
    obtain ⟨mid, _, positive, bid, ask, rfl⟩ := FixedMakerConfig.plan_eq_some.mp planned
    rw [uncrossed_twoSided]
    apply mul_lt_mul_of_pos_left _ positive
    rcases apart with wide | wide
    · have : 0 < config.bidSpread := lt_of_le_of_ne bid wide.symm
      linarith
    · have : 0 < config.askSpread := lt_of_le_of_ne ask wide.symm
      linarith

end FixedMaker

section GridStrike

theorem GridStrikeConfig.uncrossed {config : GridStrikeConfig} {poll : MarketPoll} {legs : List Leg}
    (planned : config.plan poll = some legs) : Uncrossed legs := by
  simp only [GridStrikeConfig.plan, Option.bind_eq_bind, Option.bind_eq_some_iff, Option.pure_def,
    Option.some.injEq] at planned
  obtain ⟨mid, _, prices, _, rfl⟩ := planned
  intro bid bidIn ask askIn buys sells
  obtain ⟨low, _, rfl⟩ := List.mem_map.mp bidIn
  obtain ⟨high, _, rfl⟩ := List.mem_map.mp askIn
  exact (of_decide_eq_true buys).trans_le (not_lt.mp (of_decide_eq_false sells))

end GridStrike

section Pmm

/-- Each level has a spread of its own that is positive. -/
def PmmConfig.Apart (config : PmmConfig) : Prop :=
  config.orderStepSize ≤ 0 ∨ ∀ i < config.levels, 0 < 1 + config.orderSizeSpread * (i : ℚ)

/-- The spread of a level, by its index. -/
def PmmConfig.spread (config : PmmConfig) (i : Nat) : ℚ :=
  config.orderStepSize * ((i + 1 : Nat) : ℚ) * (1 + config.orderSizeSpread * (i : ℚ))

theorem PmmConfig.mem_plan {config : PmmConfig} {state : PmmState} {poll : MarketPoll} {legs : List Leg}
    (planned : config.plan state poll = some legs) : 0 < config.orderStepSize ∧ ∃ mid, 0 < mid ∧
      ∀ leg ∈ legs, ∃ i < config.levels,
        leg.price = mid * if leg.isBuy then 1 - config.spread i else 1 + config.spread i := by
  simp only [PmmConfig.plan, PmmConfig.levelsAt, planPmmLevels, Option.bind_eq_bind, Option.bind_eq_some_iff,
    Option.pure_def, Option.some.injEq] at planned
  obtain ⟨mid, _, levels, planned, rfl⟩ := planned
  split at planned
  · cases planned
  · rename_i proper
    obtain rfl := Option.some.inj planned
    simp only [not_or, not_le] at proper
    refine ⟨proper.2.2, mid, proper.1, fun leg member => ?_⟩
    obtain ⟨level, among, side⟩ := List.mem_flatMap.mp member
    obtain ⟨i, below, rfl⟩ := List.mem_map.mp among
    refine ⟨i, List.mem_range.mp below, ?_⟩
    rcases List.mem_pair.mp side with rfl | rfl
    · rfl
    · rfl

theorem PmmConfig.plan_openPoll {config : PmmConfig} (step : 0 < config.orderStepSize) {i : Nat}
    (level : i < config.levels) : ∃ legs, config.plan ⟨0, none⟩ (openPoll ⟨[], []⟩) = some legs ∧
      ∃ bid ∈ legs, ∃ ask ∈ legs, bid.isBuy = true ∧ ask.isBuy = false ∧
        bid.price = 1 - config.spread i ∧ ask.price = 1 + config.spread i := by
  have proper : ¬ ((1 : ℚ) ≤ 0 ∨ config.levels = 0 ∨ config.orderStepSize ≤ 0) := by
    rintro (zero | zero | small)
    · exact absurd zero (by norm_num)
    · omega
    · exact absurd step (not_lt.mpr small)
  have planned : ∃ levels, config.levelsAt 1 0 = some levels ∧ ∃ here ∈ levels,
      here.bidPrice = 1 - config.spread i ∧ here.askPrice = 1 + config.spread i := by
    refine ⟨_, if_neg proper, _, List.mem_map_of_mem (List.mem_range.mpr level), ?_⟩
    exact ⟨one_mul _, one_mul _⟩
  obtain ⟨levels, planned, here, member, bid, ask⟩ := planned
  refine ⟨levels.flatMap PmmLevel.legs, ?_, ?_⟩
  · have mid : currentMid (openPoll ⟨[], []⟩).ticker = some 1 := rfl
    rw [PmmConfig.plan, mid]
    simp [planned]
  · refine ⟨_, List.mem_flatMap.mpr ⟨here, member, List.mem_cons_self⟩, _,
      List.mem_flatMap.mpr ⟨here, member, List.mem_cons_of_mem _ List.mem_cons_self⟩, rfl, rfl, bid, ask⟩

theorem PmmConfig.spread_pos {config : PmmConfig} (step : 0 < config.orderStepSize) {i : Nat} :
    0 < config.spread i ↔ 0 < 1 + config.orderSizeSpread * (i : ℚ) := by
  have scale : 0 < config.orderStepSize * ((i + 1 : Nat) : ℚ) := by positivity
  exact mul_pos_iff_of_pos_left scale

theorem PmmConfig.uncrossed_iff (config : PmmConfig) :
    (∀ poll legs, config.plan ⟨0, none⟩ poll = some legs → Uncrossed legs) ↔ config.Apart := by
  constructor
  · intro uncrossed
    rcases le_or_gt config.orderStepSize 0 with idle | step
    · exact .inl idle
    · refine .inr fun i level => (PmmConfig.spread_pos step).mp ?_
      obtain ⟨legs, planned, bid, bidIn, ask, askIn, buys, sells, low, high⟩ := PmmConfig.plan_openPoll step level
      have apart := uncrossed _ _ planned bid bidIn ask askIn buys sells
      rw [low, high] at apart
      linarith
  · intro apart poll legs planned bid bidIn ask askIn buys sells
    obtain ⟨step, mid, positive, among⟩ := PmmConfig.mem_plan planned
    have wide := apart.resolve_left (not_le.mpr step)
    obtain ⟨i, below, low⟩ := among bid bidIn
    obtain ⟨j, within, high⟩ := among ask askIn
    rw [low, high, buys, sells]
    apply mul_lt_mul_of_pos_left _ positive
    have bidSpread := (PmmConfig.spread_pos step).mpr (wide i below)
    have askSpread := (PmmConfig.spread_pos step).mpr (wide j within)
    simp only [if_true, Bool.false_eq_true, if_false]
    linarith

end Pmm

section Xemm

/-- The profit and the offset of each level are together positive. -/
def XemmConfig.Apart (config : XemmConfig) : Prop :=
  config.minProfitability < 0 ∨
    ∀ i, 1 ≤ i → i ≤ config.levels → 0 < config.minProfitability + config.stepSize * (i : ℚ)

theorem XemmConfig.plan_eq_some {config : XemmConfig} {poll : MarketPoll} {legs : List Leg}
    (planned : config.plan poll = some legs) : 0 ≤ config.minProfitability ∧ ∃ center, 0 < center ∧
      ∀ leg ∈ legs, ∃ i, 1 ≤ i ∧ i ≤ config.levels ∧ leg.price = center *
        if leg.isBuy then max (1 - config.minProfitability - config.stepSize * (i : ℚ)) 0
        else 1 + config.minProfitability + config.stepSize * (i : ℚ) := by
  simp only [XemmConfig.plan, planXemmQuotes, Option.bind_eq_bind, Option.bind_eq_some_iff] at planned
  obtain ⟨⟨takerBid, takerAsk⟩, _, plan, quotes, planned⟩ := planned
  split at quotes
  · cases quotes
  rename_i proper
  simp only [not_or, not_le, not_lt] at proper
  split at quotes
  · obtain rfl := Option.some.inj quotes
    cases planned
  obtain rfl := Option.some.inj quotes
  obtain rfl := Option.some.inj planned
  have center : 0 < midPrice takerBid takerAsk := by
    rw [midPrice]
    linarith [proper.1, proper.2.1]
  refine ⟨proper.2.2.2, _, center, fun leg member => ?_⟩
  rcases List.mem_append.mp member with bid | ask
  · obtain ⟨price, among, rfl⟩ := List.mem_map.mp bid
    obtain ⟨i, level, rfl⟩ := List.mem_map.mp among
    obtain ⟨first, last⟩ := List.mem_range'_1.mp level
    exact ⟨i, first, by omega, rfl⟩
  · obtain ⟨price, among, rfl⟩ := List.mem_map.mp ask
    obtain ⟨i, level, rfl⟩ := List.mem_map.mp among
    obtain ⟨first, last⟩ := List.mem_range'_1.mp level
    exact ⟨i, first, by omega, rfl⟩

/-- A book of a spread that is wide enough for a profit. -/
def wideBook (profit : ℚ) : OrderBook := bookOf 1 (2 + 2 * profit)

theorem XemmConfig.plan_openPoll {config : XemmConfig} (profit : 0 ≤ config.minProfitability) :
    ∃ center, 0 < center ∧ config.plan (openPoll (wideBook config.minProfitability)) = some (
      ((List.range' 1 config.levels).map fun i =>
        ⟨true, center * max (1 - config.minProfitability - config.stepSize * (i : ℚ)) 0, config.qty⟩) ++
      (List.range' 1 config.levels).map fun i =>
        ⟨false, center * (1 + config.minProfitability + config.stepSize * (i : ℚ)), config.qty⟩) := by
  have best : takerBest (openPoll (wideBook config.minProfitability)).orderBook =
      some (1, 2 + 2 * config.minProfitability) := rfl
  refine ⟨midPrice 1 (2 + 2 * config.minProfitability), ?_, ?_⟩
  · rw [midPrice]
    linarith
  · have proper : ¬ ((1 : ℚ) ≤ 0 ∨ 2 + 2 * config.minProfitability ≤ 0 ∨
        2 + 2 * config.minProfitability ≤ 1 ∨ config.minProfitability < 0) := by
      rintro (bad | bad | bad | bad) <;> linarith
    have wide : ¬ (2 + 2 * config.minProfitability - 1) / 1 < config.minProfitability * 2 := by
      rw [div_one]
      linarith
    rw [XemmConfig.plan, best]
    simp only [Option.bind_eq_bind, Option.bind_some, planXemmQuotes, if_neg proper, if_neg wide,
      Bool.false_eq_true, if_false, List.map_map, Function.comp_def]
    rfl

theorem XemmConfig.uncrossed_iff (config : XemmConfig) :
    (∀ poll legs, config.plan poll = some legs → Uncrossed legs) ↔ config.Apart := by
  constructor
  · intro uncrossed
    rcases lt_or_ge config.minProfitability 0 with idle | profit
    · exact .inl idle
    · refine .inr fun i first last => ?_
      obtain ⟨center, positive, planned⟩ := XemmConfig.plan_openPoll profit
      have level : i ∈ List.range' 1 config.levels := List.mem_range'_1.mpr ⟨first, by omega⟩
      have apart := uncrossed _ _ planned _ (List.mem_append_left _ (List.mem_map_of_mem level)) _
        (List.mem_append_right _ (List.mem_map_of_mem level)) rfl rfl
      have below := lt_of_mul_lt_mul_left apart positive.le
      have above := (le_max_left _ _).trans_lt below
      linarith
  · intro apart poll legs planned bid bidIn ask askIn buys sells
    obtain ⟨profit, center, positive, among⟩ := XemmConfig.plan_eq_some planned
    have wide := apart.resolve_left (not_lt.mpr profit)
    obtain ⟨i, first, last, low⟩ := among bid bidIn
    obtain ⟨j, start, stop, high⟩ := among ask askIn
    have bidOffset := wide i first last
    have askOffset := wide j start stop
    rw [low, high, buys, sells]
    apply mul_lt_mul_of_pos_left _ positive
    simp only [if_true, Bool.false_eq_true, if_false]
    apply max_lt <;> linarith

end Xemm

section QueueMm

/-- The signal moves the fair price by less than the price, and the spread does not go away at any signal. -/
def QueueMmConfig.Apart (config : QueueMmConfig) : Prop :=
  config.halfSpread < 0 ∨ (0 < config.halfSpread ∧ |config.wPressure * config.alpha| ≤ 1 ∧
    0 ≤ 2 * config.halfSpread + config.spreadWiden * |config.wPressure * config.alpha|)

theorem bookPressure_lt {bidTotal askTotal pressure : ℚ} (told : bookPressure bidTotal askTotal = some pressure) :
    |pressure| < 1 := by
  obtain ⟨proper, same⟩ := Option.ite_none_left_eq_some.mp told
  rw [not_or, not_le, not_le] at proper
  rw [← Option.some.inj same]
  exact abs_ratio_lt proper.1 proper.2

/-- The gap between the quotes around a fair price. -/
theorem planQueueQuotes_gap {mid signal halfSpread widen : ℚ} {quotes : QueueQuotes}
    (planned : planQueueQuotes mid signal halfSpread widen = some quotes) :
    0 < mid ∧ 0 ≤ halfSpread ∧
      quotes.ask - quotes.bid = mid * ((1 + signal) * (2 * halfSpread + widen * |signal|)) := by
  obtain ⟨proper, same⟩ := Option.ite_none_left_eq_some.mp planned
  rw [not_or, not_le, not_lt] at proper
  refine ⟨proper.1, proper.2, ?_⟩
  rw [← Option.some.inj same]
  have parts : |signal| = max signal 0 + max (-signal) 0 := by
    rcases le_total 0 signal with up | down
    · rw [abs_of_nonneg up, max_eq_left up, max_eq_right (neg_nonpos.mpr up), add_zero]
    · rw [abs_of_nonpos down, max_eq_right down, max_eq_left (neg_nonneg.mpr down), zero_add]
  rw [parts]
  ring

/-- The signals that a pressure below one in size can give. -/
theorem signal_iff {scale signal : ℚ} :
    (∃ pressure : ℚ, |pressure| < 1 ∧ scale * pressure = signal) ↔ signal = 0 ∨ |signal| < |scale| := by
  constructor
  · intro ⟨pressure, within, same⟩
    rw [← same]
    rcases eq_or_ne scale 0 with rfl | nonzero
    · exact .inl (zero_mul _)
    · right
      rw [abs_mul]
      exact mul_lt_of_lt_one_right (abs_pos.mpr nonzero) within
  · intro reached
    rcases reached with rfl | within
    · exact ⟨0, by norm_num, mul_zero _⟩
    · have size : 0 < |scale| := (abs_nonneg signal).trans_lt within
      refine ⟨signal / scale, ?_, mul_div_cancel₀ _ (abs_pos.mp size)⟩
      rw [abs_div, div_lt_one size]
      exact within

/-- The gap is open at every signal just if neither the fair price nor the spread gets to zero. -/
theorem gap_pos_iff {reach halfSpread widen : ℚ} :
    (∀ signal : ℚ, signal = 0 ∨ |signal| < reach → 0 < (1 + signal) * (2 * halfSpread + widen * |signal|)) ↔
    0 < halfSpread ∧ reach ≤ 1 ∧ 0 ≤ 2 * halfSpread + widen * max reach 0 := by
  constructor
  · intro gap
    have still := gap 0 (.inl rfl)
    have half : 0 < halfSpread := by
      rw [abs_zero, mul_zero, add_zero, add_zero, one_mul] at still
      linarith
    refine ⟨half, ?_, ?_⟩
    · by_contra far
      have gone := gap (-1) (.inr (by rw [abs_neg, abs_one]; exact not_le.mp far))
      rw [add_neg_cancel, zero_mul] at gone
      exact absurd gone (lt_irrefl 0)
    · by_contra narrow
      rw [not_le] at narrow
      have shrinks : widen < 0 := by
        by_contra grows
        have := mul_nonneg (not_lt.mp grows) (le_max_right reach 0)
        linarith
      -- the signal at which the spread is gone
      have width : 0 < 2 * halfSpread / -widen := div_pos (by linarith) (neg_pos.mpr shrinks)
      have inside : 2 * halfSpread / -widen < max reach 0 := by
        rw [div_lt_iff₀ (neg_pos.mpr shrinks)]
        linarith
      have within : |2 * halfSpread / -widen| < reach := by
        rw [abs_of_pos width]
        exact (lt_max_iff.mp inside).resolve_right (not_lt.mpr width.le)
      have gone := gap _ (.inr within)
      have closed : 2 * halfSpread + widen * (2 * halfSpread / -widen) = 0 := by
        rw [div_neg, mul_neg, mul_div_cancel₀ _ shrinks.ne, add_neg_cancel]
      rw [abs_of_pos width, closed, mul_zero] at gone
      exact absurd gone (lt_irrefl 0)
  · rintro ⟨half, small, wide⟩ signal reached
    rcases reached with rfl | within
    · rw [abs_zero, mul_zero, add_zero, add_zero, one_mul]
      linarith
    · have positive : 0 < reach := (abs_nonneg signal).trans_lt within
      rw [max_eq_left positive.le] at wide
      apply mul_pos
      · have low := (abs_lt.mp within).1
        linarith
      · rcases le_or_gt 0 widen with grows | shrinks
        · have := mul_nonneg grows (abs_nonneg signal)
          linarith
        · have := mul_lt_mul_of_neg_left within shrinks
          linarith

theorem QueueMmConfig.plan_eq_some {config : QueueMmConfig} {impulse : TradeImpulse} {poll : MarketPoll}
    {legs : List Leg} (idle : impulse.signedVolumes = []) (planned : config.plan impulse poll = some legs) :
    0 ≤ config.halfSpread ∧ ∃ mid signal, 0 < mid ∧ (signal = 0 ∨ |signal| < |config.wPressure * config.alpha|) ∧
      ∃ bid ask, legs = twoSided bid config.qty ask config.qty ∧ ask - bid =
        mid * ((1 + signal) * (2 * config.halfSpread + config.spreadWiden * |signal|)) := by
  have silent : impulse.normalised = none := by
    rw [TradeImpulse.normalised, idle]
    rfl
  simp only [QueueMmConfig.plan, silent, compositeSignal, Option.getD_none, mul_zero, add_zero,
    Option.bind_eq_bind, Option.bind_eq_some_iff, Option.pure_def, Option.some.injEq] at planned
  obtain ⟨mid, _, ⟨bidTotal, askTotal⟩, _, quotes, planned, rfl⟩ := planned
  obtain ⟨positive, spread, gap⟩ := planQueueQuotes_gap planned
  refine ⟨spread, mid, _, positive, ?_, _, _, rfl, gap⟩
  apply signal_iff.mp
  cases told : bookPressure bidTotal askTotal with
  | none => exact ⟨0, by norm_num, by simp⟩
  | some pressure => exact ⟨pressure, bookPressure_lt told, by simp only [Option.getD_some]; ring⟩

/-- The amounts of a book that has a given pressure. -/
def pressedBook (pressure : ℚ) : OrderBook := bookOf (1 + pressure) (1 - pressure)

theorem ratio_pressed (pressure : ℚ) :
    (1 + pressure - (1 - pressure)) / (1 + pressure + (1 - pressure)) = pressure := by
  ring

theorem QueueMmConfig.plan_openPoll {config : QueueMmConfig} {impulse : TradeImpulse}
    (idle : impulse.signedVolumes = []) (spread : 0 ≤ config.halfSpread) {pressure : ℚ} (within : |pressure| < 1) :
    ∃ bid ask, config.plan impulse (openPoll (pressedBook pressure)) =
        some (twoSided bid config.qty ask config.qty) ∧
      ask - bid = (1 + config.wPressure * config.alpha * pressure) * (2 * config.halfSpread +
        config.spreadWiden * |config.wPressure * config.alpha * pressure|) := by
  have silent : impulse.normalised = none := by
    rw [TradeImpulse.normalised, idle]
    rfl
  obtain ⟨low, high⟩ := abs_lt.mp within
  have totals : bookTotals (openPoll (pressedBook pressure)).orderBook = some (1 + pressure, 1 - pressure) := by
    simp [bookTotals, openPoll, pressedBook, bookOf, amounts, Except.toOption]
  have told : bookPressure (1 + pressure) (1 - pressure) = some pressure := by
    rw [bookPressure, if_neg, ratio_pressed]
    rw [not_or]
    constructor <;> linarith
  have signal : config.wPressure * pressure * config.alpha = config.wPressure * config.alpha * pressure := by ring
  have proper : ¬ ((1 : ℚ) ≤ 0 ∨ config.halfSpread < 0) := by
    rw [not_or]
    exact ⟨by norm_num, not_lt.mpr spread⟩
  have planned : ∃ quotes, planQueueQuotes 1 (config.wPressure * config.alpha * pressure) config.halfSpread
      config.spreadWiden = some quotes := ⟨_, if_neg proper⟩
  obtain ⟨quotes, planned⟩ := planned
  refine ⟨quotes.bid, quotes.ask, ?_, ?_⟩
  · have mid : currentMid (openPoll (pressedBook pressure)).ticker = some 1 := rfl
    simp [QueueMmConfig.plan, mid, totals, told, silent, compositeSignal, signal, planned]
  · rw [(planQueueQuotes_gap planned).2.2, one_mul]

theorem QueueMmConfig.uncrossed_iff (config : QueueMmConfig) {impulse : TradeImpulse}
    (idle : impulse.signedVolumes = []) :
    (∀ poll legs, config.plan impulse poll = some legs → Uncrossed legs) ↔ config.Apart := by
  have open_iff := @gap_pos_iff |config.wPressure * config.alpha| config.halfSpread config.spreadWiden
  rw [max_eq_left (abs_nonneg _)] at open_iff
  constructor
  · intro uncrossed
    rcases lt_or_ge config.halfSpread 0 with quiet | spread
    · exact .inl quiet
    · refine .inr (open_iff.mp fun signal reached => ?_)
      obtain ⟨pressure, within, rfl⟩ := signal_iff.mpr reached
      obtain ⟨bid, ask, planned, gap⟩ := QueueMmConfig.plan_openPoll idle spread within
      rw [← gap]
      exact sub_pos.mpr (uncrossed_twoSided.mp (uncrossed _ _ planned))
  · intro apart poll legs planned
    obtain ⟨spread, mid, signal, positive, reached, bid, ask, rfl, gap⟩ := QueueMmConfig.plan_eq_some idle planned
    have wide := open_iff.mpr (apart.resolve_left (not_lt.mpr spread)) signal reached
    rw [uncrossed_twoSided, ← sub_pos, gap]
    exact mul_pos positive wide

end QueueMm

section ObiMm

/-- The imbalance moves the fair price by less than the price, and there is a spread. -/
def ObiMmConfig.Apart (config : ObiMmConfig) : Prop :=
  config.halfSpread < 0 ∨ config.depth = 0 ∨ (0 < config.halfSpread ∧ |config.signalWeight| ≤ 1)

theorem sum_pos_of_take {sizes : List ℚ} (positive : ∀ size ∈ sizes, 0 < size) {n : Nat} (some_ : 0 < n)
    (enough : n ≤ sizes.length) : 0 < (sizes.take n).sum := by
  apply List.sum_pos
  · intro size member
    exact positive size (List.mem_of_mem_take member)
  · intro empty
    have := congrArg List.length empty
    rw [List.length_take, List.length_nil] at this
    omega

theorem computeObi_lt {bids asks : List ℚ} {depth : Nat} {obi : ℚ} (bidSizes : ∀ size ∈ bids, 0 < size)
    (askSizes : ∀ size ∈ asks, 0 < size) (told : computeObi bids asks depth = some obi) :
    depth ≠ 0 ∧ |obi| < 1 := by
  rw [computeObi] at told
  obtain ⟨levels, told⟩ := Option.ite_none_left_eq_some.mp told
  obtain ⟨_, same⟩ := Option.ite_none_left_eq_some.mp told
  rw [← Option.some.inj same]
  refine ⟨by omega, abs_ratio_lt ?_ ?_⟩
  · exact sum_pos_of_take bidSizes (by omega) (by omega)
  · exact sum_pos_of_take askSizes (by omega) (by omega)

theorem extractSizes_pos {levels : List PriceLevel} : ∀ size ∈ extractSizes levels, 0 < size := by
  intro size member
  exact of_decide_eq_true (List.mem_filter.mp member).2

theorem planObiQuotes_gap {mid obi halfSpread baseQty sizeSkew : ℚ} {quotes : ObiQuotes}
    (planned : planObiQuotes mid obi halfSpread baseQty sizeSkew = some quotes) :
    0 < mid ∧ 0 ≤ halfSpread ∧
      quotes.ask - quotes.bid = mid * ((1 + sizeSkew * obi) * (2 * halfSpread + 0 * |sizeSkew * obi|)) := by
  obtain ⟨proper, same⟩ := Option.ite_none_left_eq_some.mp planned
  rw [not_or, not_le, not_lt] at proper
  refine ⟨proper.1, proper.2, ?_⟩
  rw [← Option.some.inj same]
  simp only [fairPrice]
  ring

theorem ObiMmConfig.plan_eq_some {config : ObiMmConfig} {poll : MarketPoll} {legs : List Leg}
    (planned : config.plan poll = some legs) : config.depth ≠ 0 ∧ 0 ≤ config.halfSpread ∧
      ∃ mid signal, 0 < mid ∧ (signal = 0 ∨ |signal| < |config.signalWeight|) ∧
      ∃ bid bidQty ask askQty, legs = twoSided bid bidQty ask askQty ∧
        ask - bid = mid * ((1 + signal) * (2 * config.halfSpread + 0 * |signal|)) := by
  simp only [ObiMmConfig.plan, Option.bind_eq_bind, Option.bind_eq_some_iff, Option.pure_def,
    Option.some.injEq] at planned
  obtain ⟨mid, _, book, _, obi, told, quotes, planned, rfl⟩ := planned
  obtain ⟨levels, within⟩ := computeObi_lt extractSizes_pos extractSizes_pos told
  obtain ⟨positive, spread, gap⟩ := planObiQuotes_gap planned
  exact ⟨levels, spread, mid, _, positive, signal_iff.mp ⟨obi, within, rfl⟩, _, _, _, _, rfl, gap⟩

theorem ObiMmConfig.plan_openPoll {config : ObiMmConfig} (levels : config.depth ≠ 0)
    (spread : 0 ≤ config.halfSpread) {obi : ℚ} (within : |obi| < 1) :
    ∃ bid bidQty ask askQty, config.plan (openPoll (pressedBook obi)) = some (twoSided bid bidQty ask askQty) ∧
      ask - bid = (1 + config.signalWeight * obi) *
        (2 * config.halfSpread + 0 * |config.signalWeight * obi|) := by
  obtain ⟨low, high⟩ := abs_lt.mp within
  have bids : extractSizes (pressedBook obi).bids = [1 + obi] := by
    have size : 0 < 1 + obi := by linarith
    simp [extractSizes, pressedBook, bookOf, amounts, Except.toOption, size]
  have asks : extractSizes (pressedBook obi).asks = [1 - obi] := by
    have size : 0 < 1 - obi := by linarith
    simp [extractSizes, pressedBook, bookOf, amounts, Except.toOption, size]
  have told : computeObi [1 + obi] [1 - obi] config.depth = some obi := by
    have one : min (min config.depth [1 + obi].length) [1 - obi].length = 1 := by
      simp only [List.length_singleton]
      omega
    have total : 1 + obi + (1 - obi) ≠ 0 := by
      intro none
      linarith
    simp only [computeObi, one, List.take_succ_cons, List.take_zero, List.sum_singleton]
    rw [if_neg one_ne_zero, if_neg total, ratio_pressed]
  have proper : ¬ ((1 : ℚ) ≤ 0 ∨ config.halfSpread < 0) := by
    rw [not_or]
    exact ⟨by norm_num, not_lt.mpr spread⟩
  have planned : ∃ quotes, planObiQuotes 1 obi config.halfSpread config.qty config.signalWeight =
      some quotes := ⟨_, if_neg proper⟩
  obtain ⟨quotes, planned⟩ := planned
  refine ⟨quotes.bid, quotes.bidQty, quotes.ask, quotes.askQty, ?_, ?_⟩
  · have mid : currentMid (openPoll (pressedBook obi)).ticker = some 1 := rfl
    have book : (openPoll (pressedBook obi)).orderBook.toOption = some (pressedBook obi) := rfl
    simp [ObiMmConfig.plan, mid, book, bids, asks, told, planned]
  · rw [(planObiQuotes_gap planned).2.2, one_mul]

theorem ObiMmConfig.uncrossed_iff (config : ObiMmConfig) :
    (∀ poll legs, config.plan poll = some legs → Uncrossed legs) ↔ config.Apart := by
  have open_iff := @gap_pos_iff |config.signalWeight| config.halfSpread 0
  rw [max_eq_left (abs_nonneg _), zero_mul, add_zero] at open_iff
  constructor
  · intro uncrossed
    rcases lt_or_ge config.halfSpread 0 with quiet | spread
    · exact .inl quiet
    rcases eq_or_ne config.depth 0 with none | levels
    · exact .inr (.inl none)
    have wide := open_iff.mp fun signal reached => by
      obtain ⟨obi, within, rfl⟩ := signal_iff.mpr reached
      obtain ⟨bid, _, ask, _, planned, gap⟩ := ObiMmConfig.plan_openPoll levels spread within
      rw [← gap]
      exact sub_pos.mpr (uncrossed_twoSided.mp (uncrossed _ _ planned))
    exact .inr (.inr ⟨wide.1, wide.2.1⟩)
  · intro apart poll legs planned
    obtain ⟨levels, spread, mid, signal, positive, reached, bid, _, ask, _, rfl, gap⟩ :=
      ObiMmConfig.plan_eq_some planned
    have ⟨half, small⟩ := (apart.resolve_left (not_lt.mpr spread)).resolve_left levels
    have wide := open_iff.mpr ⟨half, small, mul_nonneg zero_le_two spread⟩ signal reached
    rw [uncrossed_twoSided, ← sub_pos, gap]
    exact mul_pos positive wide

end ObiMm

section PerpMm

/-- There is a spread, or nothing is quoted. -/
def PerpMmConfig.Apart (config : PerpMmConfig) : Prop := config.halfSpread ≠ 0

/-- The gap between the quotes does not depend on the skew. -/
theorem PerpMmConfig.plan_eq_some {config : PerpMmConfig} {inventory : ℚ} {poll : MarketPoll} {legs : List Leg} :
    config.plan inventory poll = some legs → 0 ≤ config.halfSpread ∧ ∃ mid bid ask, 0 < mid ∧
      legs = twoSided bid config.qty ask config.qty ∧ ask - bid = mid * (2 * config.halfSpread) := by
  intro planned
  simp only [PerpMmConfig.plan, Option.bind_eq_bind, Option.bind_eq_some_iff, Option.pure_def,
    Option.some.injEq] at planned
  obtain ⟨mid, _, quotes, planned, rfl⟩ := planned
  obtain ⟨proper, same⟩ := Option.ite_none_left_eq_some.mp planned
  rw [not_or, not_le, not_lt] at proper
  rw [← Option.some.inj same]
  refine ⟨proper.2, mid, _, _, proper.1, rfl, ?_⟩
  ring

theorem PerpMmConfig.plan_openPoll {config : PerpMmConfig} {inventory : ℚ} (spread : 0 ≤ config.halfSpread) :
    (config.plan inventory (openPoll ⟨[], []⟩)).isSome := by
  have proper : ¬ ((1 : ℚ) ≤ 0 ∨ config.halfSpread < 0) := by
    rw [not_or]
    exact ⟨by norm_num, not_lt.mpr spread⟩
  have mid : currentMid (openPoll ⟨[], []⟩).ticker = some 1 := rfl
  simp [PerpMmConfig.plan, mid, planPerpQuotes, if_neg proper]

theorem PerpMmConfig.uncrossed_iff (config : PerpMmConfig) (inventory : ℚ) :
    (∀ poll legs, config.plan inventory poll = some legs → Uncrossed legs) ↔ config.Apart := by
  constructor
  · intro uncrossed flat
    obtain ⟨legs, planned⟩ := Option.isSome_iff_exists.mp
      (@PerpMmConfig.plan_openPoll config inventory flat.ge)
    obtain ⟨_, mid, bid, ask, _, rfl, gap⟩ := PerpMmConfig.plan_eq_some planned
    have apart := uncrossed_twoSided.mp (uncrossed _ _ planned)
    rw [flat, mul_zero, mul_zero] at gap
    linarith
  · intro apart poll legs planned
    obtain ⟨spread, mid, bid, ask, positive, rfl, gap⟩ := PerpMmConfig.plan_eq_some planned
    have half : 0 < config.halfSpread := lt_of_le_of_ne spread apart.symm
    rw [uncrossed_twoSided, ← sub_pos, gap]
    exact mul_pos positive (mul_pos two_pos half)

end PerpMm

section BollGrid

theorem mem_planLadder {close : ℚ} {bands : Bands ℚ} {gridNum : Nat} {price : ℚ} {isBuy : Bool}
    (member : (price, isBuy) ∈ planLadder close bands gridNum) :
    bands.lower ≤ price ∧ price ≤ bands.upper ∧ if isBuy then price < close else close < price := by
  rw [planLadder] at member
  split at member
  · cases member
  · rename_i proper
    simp only [not_or, not_le, not_lt] at proper
    obtain ⟨level, among, leg⟩ := List.mem_flatMap.mp member
    obtain ⟨first, _⟩ := List.mem_range'_1.mp among
    have offset : 0 < (bands.upper - bands.lower) / ((gridNum + 1 : Nat) : ℚ) * (level : ℚ) := by
      apply mul_pos
      · exact div_pos proper.1 (Nat.cast_pos.mpr (Nat.succ_pos gridNum))
      · exact Nat.cast_pos.mpr first
    rcases List.mem_append.mp leg with bid | ask
    · split at bid
      · rename_i within
        obtain ⟨rfl, rfl⟩ := Prod.mk.inj (List.mem_singleton.mp bid)
        exact ⟨within.2, by linarith [proper.2.1], by simpa using offset⟩
      · cases bid
    · split at ask
      · rename_i within
        obtain ⟨rfl, rfl⟩ := Prod.mk.inj (List.mem_singleton.mp ask)
        exact ⟨by linarith [proper.2.2], within, by simpa using offset⟩
      · cases ask

theorem BollGridConfig.uncrossed {config : BollGridConfig} {poll : MarketPoll} {legs : List Leg}
    (planned : config.plan poll = some legs) : Uncrossed legs := by
  simp only [BollGridConfig.plan, Option.bind_eq_bind, Option.bind_eq_some_iff, Option.pure_def,
    Option.some.injEq] at planned
  obtain ⟨_, _, bands, _, close, _, rfl⟩ := planned
  intro bid bidIn ask askIn buys sells
  obtain ⟨⟨low, bidSide⟩, lowIn, rfl⟩ := List.mem_map.mp bidIn
  obtain ⟨⟨high, askSide⟩, highIn, rfl⟩ := List.mem_map.mp askIn
  obtain rfl : bidSide = true := buys
  obtain rfl : askSide = false := sells
  have below := (mem_planLadder lowIn).2.2
  have above := (mem_planLadder highIn).2.2
  exact below.trans above

end BollGrid

section Makers

inductive Maker where
  | fixedMaker (config : FixedMakerConfig)
  | gridStrike (config : GridStrikeConfig)
  | pmm (config : PmmConfig)
  | xemm (config : XemmConfig)
  | queueMm (config : QueueMmConfig)
  | obiMm (config : ObiMmConfig)
  | perpMm (config : PerpMmConfig)
  | bollGrid (config : BollGridConfig)

/-- What a maker keeps from one cycle to the next. -/
def Maker.State : Maker → Type
  | .fixedMaker _ | .gridStrike _ | .xemm _ | .obiMm _ | .bollGrid _ => Unit
  | .pmm _ => PmmState
  | .queueMm _ => TradeImpulse
  | .perpMm _ => ℚ

/-- The state of a maker that is new. -/
def Maker.start : (maker : Maker) → maker.State
  | .fixedMaker _ | .gridStrike _ | .xemm _ | .obiMm _ | .bollGrid _ => ()
  | .pmm _ => ⟨0, none⟩
  | .queueMm config => TradeImpulse.new config.impulseWindow
  | .perpMm _ => (0 : ℚ)

/-- One cycle of a maker. -/
def Maker.tick : (maker : Maker) → maker.State → MarketPoll → maker.State × List (Call (Request ℚ))
  | .fixedMaker config, state, poll => (state, config.tick poll)
  | .gridStrike config, state, poll => (state, config.tick poll)
  | .pmm config, state, poll => config.tick state poll
  | .xemm config, state, poll => (state, config.tick poll)
  | .queueMm config, state, poll => config.tick state poll
  | .obiMm config, state, poll => (state, config.tick poll)
  | .perpMm config, state, poll => config.tick state poll
  | .bollGrid config, state, poll => (state, config.tick poll)

/-- The plan that a new maker has for a poll. -/
def Maker.plan : Maker → MarketPoll → Option (List Leg)
  | .fixedMaker config, poll => config.plan poll
  | .gridStrike config, poll => config.plan poll
  | .pmm config, poll => config.plan ⟨0, none⟩ poll
  | .xemm config, poll => config.plan poll
  | .queueMm config, poll => config.plan (TradeImpulse.new config.impulseWindow) poll
  | .obiMm config, poll => config.plan poll
  | .perpMm config, poll => config.plan 0 poll
  | .bollGrid config, poll => config.plan poll

def Maker.common : Maker → CommonParams
  | .fixedMaker config => config.common
  | .gridStrike config => config.common
  | .pmm config => config.common
  | .xemm config => config.common
  | .queueMm config => config.common
  | .obiMm config => config.common
  | .perpMm config => config.common
  | .bollGrid config => config.common

/-- A cycle ends at the first order that is refused. -/
def Maker.stops : Maker → Bool
  | .bollGrid _ => true
  | _ => false

/-- The configurations with which no bid of a plan is at or above an ask. -/
def Maker.Apart : Maker → Prop
  | .gridStrike _ | .bollGrid _ => True
  | .fixedMaker config => config.Apart
  | .pmm config => config.Apart
  | .xemm config => config.Apart
  | .queueMm config => config.Apart
  | .obiMm config => config.Apart
  | .perpMm config => config.Apart

/-- The inventory and the trades of a maker are those of a new one: no cycle records any. -/
def Maker.Blank : (maker : Maker) → maker.State → Prop
  | .fixedMaker _, _ | .gridStrike _, _ | .xemm _, _ | .obiMm _, _ | .bollGrid _, _ => True
  | .pmm _, state => PmmState.inventory state = 0
  | .queueMm config, impulse => impulse = TradeImpulse.new config.impulseWindow
  | .perpMm _, inventory => inventory = (0 : ℚ)

/-- The orders of the plan for a poll. -/
def Maker.Plans (maker : Maker) (poll : MarketPoll) (orders : List (Request ℚ)) : Prop :=
  ∃ legs, maker.plan poll = some legs ∧ orders = legs.map (Leg.order maker.common)

theorem Maker.uncrossed_iff (maker : Maker) :
    (∀ poll legs, maker.plan poll = some legs → Uncrossed legs) ↔ maker.Apart := by
  cases maker with
  | fixedMaker config => exact config.uncrossed_iff
  | gridStrike config => exact iff_of_true (fun _ _ => GridStrikeConfig.uncrossed) trivial
  | pmm config => exact config.uncrossed_iff
  | xemm config => exact config.uncrossed_iff
  | queueMm config => exact config.uncrossed_iff rfl
  | obiMm config => exact config.uncrossed_iff
  | perpMm config => exact config.uncrossed_iff 0
  | bollGrid config => exact iff_of_true (fun _ _ => BollGridConfig.uncrossed) trivial

theorem Maker.requotes (maker : Maker) (poll : MarketPoll) :
    requote maker.common maker.stops poll.answers (maker.plan poll) = [] ∨
      ∃ stops answers orders, maker.Plans poll orders ∧
        requote maker.common maker.stops poll.answers (maker.plan poll) = replace stops answers orders := by
  cases planned : maker.plan poll with
  | none => exact .inl rfl
  | some legs => exact .inr ⟨maker.stops, poll.answers, _, ⟨legs, planned, rfl⟩, rfl⟩

theorem PmmConfig.tick_cases (config : PmmConfig) (state : PmmState) (poll : MarketPoll) :
    (config.tick state poll).1.inventory = state.inventory ∧ ((config.tick state poll).2 = [] ∨
      (config.tick state poll).2 = requote config.common false poll.answers (config.plan state poll)) := by
  rw [PmmConfig.tick]
  cases currentMid poll.ticker with
  | none => exact ⟨rfl, .inl rfl⟩
  | some mid =>
    dsimp only
    split
    · exact ⟨rfl, .inl rfl⟩
    · cases config.plan state poll with
      | none => exact ⟨rfl, .inl rfl⟩
      | some legs =>
        refine ⟨?_, .inr rfl⟩
        dsimp only
        split <;> rfl

/-- A cycle leaves the venue alone, or replaces what rests by the plan for its poll. -/
theorem Maker.replaces (maker : Maker) : Replaces maker.tick maker.Blank maker.Plans where
  keeps state poll blank := by
    cases maker with
    | pmm config => exact (config.tick_cases state poll).1.trans blank
    | _ => exact blank
  cycle state poll blank := by
    cases maker with
    | pmm config =>
      have same : config.plan state poll = config.plan ⟨0, none⟩ poll :=
        congrArg (fun inventory => config.plan ⟨inventory, none⟩ poll) blank
      rcases (config.tick_cases state poll).2 with idle | calls
      · exact .inl idle
      · rw [same] at calls
        rw [Maker.tick, calls]
        exact (Maker.pmm config).requotes poll
    | queueMm config =>
      obtain rfl : state = TradeImpulse.new config.impulseWindow := blank
      exact (Maker.queueMm config).requotes poll
    | perpMm config =>
      obtain rfl : state = (0 : ℚ) := blank
      exact (Maker.perpMm config).requotes poll
    | fixedMaker config => exact (Maker.fixedMaker config).requotes poll
    | gridStrike config => exact (Maker.gridStrike config).requotes poll
    | xemm config => exact (Maker.xemm config).requotes poll
    | obiMm config => exact (Maker.obiMm config).requotes poll
    | bollGrid config => exact (Maker.bollGrid config).requotes poll

theorem Maker.blank_start (maker : Maker) : maker.Blank maker.start := by
  cases maker <;> first | rfl | trivial

/-- The first cycle quotes if there is a plan. -/
theorem Maker.tick_start (maker : Maker) {poll : MarketPoll} {legs : List Leg}
    (planned : maker.plan poll = some legs) :
    (maker.tick maker.start poll).2 = replace maker.stops poll.answers (legs.map (Leg.order maker.common)) := by
  have first : (maker.tick maker.start poll).2 =
      requote maker.common maker.stops poll.answers (maker.plan poll) := by
    cases maker with
    | pmm config =>
      have planned : config.plan ⟨0, none⟩ poll = some legs := planned
      show (config.tick ⟨0, none⟩ poll).2 = requote config.common false poll.answers (config.plan ⟨0, none⟩ poll)
      rw [PmmConfig.tick, planned]
      cases read : currentMid poll.ticker with
      | none =>
        rw [PmmConfig.plan, read] at planned
        cases planned
      | some mid => rfl
    | _ => rfl
  rw [first, planned]
  rfl

/-- A bid is at or above an ask. -/
def Crossed (book : List (Request ℚ)) : Prop :=
  ∃ buy ∈ book, ∃ sell ∈ book, buy.side = .buy ∧ sell.side = .sell ∧
    ∃ bid ask, buy.price = some bid ∧ sell.price = some ask ∧ ask ≤ bid

theorem Crossed.mono {book more : List (Request ℚ)} (crossed : Crossed book) (part : book.Sublist more) :
    Crossed more := by
  obtain ⟨buy, buyIn, sell, sellIn, prices⟩ := crossed
  exact ⟨buy, part.subset buyIn, sell, part.subset sellIn, prices⟩

theorem crossed_iff {common : CommonParams} {legs : List Leg} :
    Crossed (legs.map (Leg.order common)) ↔ ¬ Uncrossed legs := by
  constructor
  · intro crossed uncrossed
    obtain ⟨buy, buyIn, sell, sellIn, buys, sells, bid, ask, low, high, above⟩ := crossed
    obtain ⟨bidLeg, bidIn, rfl⟩ := List.mem_map.mp buyIn
    obtain ⟨askLeg, askIn, rfl⟩ := List.mem_map.mp sellIn
    obtain rfl := Option.some.inj low
    obtain rfl := Option.some.inj high
    have bidSide : bidLeg.isBuy = true := by
      cases side : bidLeg.isBuy with
      | true => rfl
      | false => simp [Leg.order, limitOrder, orderRequest, side] at buys
    have askSide : askLeg.isBuy = false := by
      cases side : askLeg.isBuy with
      | false => rfl
      | true => simp [Leg.order, limitOrder, orderRequest, side] at sells
    exact absurd (uncrossed bidLeg bidIn askLeg askIn bidSide askSide) (not_lt.mpr above)
  · intro touching
    simp only [Uncrossed, not_forall, not_lt] at touching
    obtain ⟨bid, bidIn, ask, askIn, buys, sells, above⟩ := touching
    refine ⟨_, List.mem_map_of_mem bidIn, _, List.mem_map_of_mem askIn, ?_, ?_, bid.price, ask.price, rfl, rfl, above⟩
    · simp [Leg.order, limitOrder, orderRequest, buys]
    · simp [Leg.order, limitOrder, orderRequest, sells]

/-- A venue that accepts everything holds the whole first plan. -/
theorem Maker.first_rests (maker : Maker) {poll : MarketPoll} {legs : List Leg}
    (planned : maker.plan poll = some legs) (cancels : poll.answers.cancels = true)
    (accepts : ∀ count, poll.answers.accepts count = true) :
    Rests (run maker.tick maker.start [poll]).2 (legs.map (Leg.order maker.common)) := by
  have calls : (run maker.tick maker.start [poll]).2 =
      replace maker.stops poll.answers (legs.map (Leg.order maker.common)) := by
    rw [run, maker.tick_start planned]
    exact List.append_nil _
  rw [calls]
  exact Rests.replaced cancels accepts _

/-- At any moment of any run, what a maker has resting is of one plan: the venue may refuse any call, lose any
order at any time, and hold an order that it said it refused. -/
theorem Maker.quotes_of_one_poll (maker : Maker) (polls : List MarketPoll) {calls : List (Call (Request ℚ))}
    (begun : calls <+: (run maker.tick maker.start polls).2) {book : List (Request ℚ)} (rests : Rests calls book) :
    book = [] ∨ ∃ poll ∈ polls, ∃ legs, maker.plan poll = some legs ∧
      book.Sublist (legs.map (Leg.order maker.common)) := by
  rcases maker.replaces.rests maker.blank_start begun rests with none | ⟨poll, among, plan, planned, part⟩
  · exact .inl none
  · obtain ⟨legs, planned, rfl⟩ := planned
    exact .inr ⟨poll, among, legs, planned, part⟩

/-- A maker of a spread of one percent below the mid and two above. -/
def narrowMaker : Maker := .fixedMaker ⟨⟨⟨"mock", ""⟩, "BTC/USDT"⟩, 1 / 100, 2 / 100, 1⟩

theorem narrowMaker_plan : narrowMaker.plan (priced 100) = some (twoSided 99 1 102 1) := by
  apply FixedMakerConfig.plan_eq_some.mpr
  exact ⟨100, currentMid_priced (by norm_num), by norm_num, by norm_num, by norm_num, by norm_num⟩

theorem quotes_of_one_poll_narrow :
    (twoSided 99 1 102 1).map (Leg.order narrowMaker.common) = [] ∨ ∃ poll ∈ [priced 100], ∃ legs,
      narrowMaker.plan poll = some legs ∧ ((twoSided 99 1 102 1).map (Leg.order narrowMaker.common)).Sublist
        (legs.map (Leg.order narrowMaker.common)) :=
  narrowMaker.quotes_of_one_poll [priced 100] List.prefix_rfl
    (narrowMaker.first_rests narrowMaker_plan rfl fun _ => rfl)

/-- A maker never has a bid of its own at or above an ask of its own, at any moment of any run and whatever
the venue does, just if its configuration keeps them apart. -/
theorem Maker.never_crosses_iff (maker : Maker) :
    (∀ polls calls book, calls <+: (run maker.tick maker.start polls).2 → Rests calls book → ¬ Crossed book) ↔
      maker.Apart := by
  rw [← maker.uncrossed_iff]
  constructor
  · intro never poll legs planned
    by_contra touching
    let willing : MarketPoll := { poll with answers := ⟨true, fun _ => true⟩ }
    have again : maker.plan willing = some legs := by
      rw [← planned]
      cases maker <;> rfl
    have book := maker.first_rests again rfl fun _ => rfl
    exact never [willing] _ _ List.prefix_rfl book (crossed_iff.mpr touching)
  · intro uncrossed polls calls book begun rests crossed
    rcases maker.replaces.rests maker.blank_start begun rests with rfl | ⟨poll, _, _, ⟨legs, planned, rfl⟩, part⟩
    · obtain ⟨buy, buyIn, _⟩ := crossed
      cases buyIn
    · exact crossed_iff.mp (crossed.mono part) (uncrossed poll legs planned)

end Makers

section Creep

/-- Each mid is in the band of the one just before. -/
def PmmConfig.Creeps (config : PmmConfig) (mids : List ℚ) : Prop :=
  mids.IsChain fun prev mid => withinPriceBand mid prev config.priceBand = true

theorem PmmConfig.planned {config : PmmConfig} (levels : config.levels ≠ 0) (step : 0 < config.orderStepSize)
    (state : PmmState) {mid : ℚ} (positive : 0 < mid) : ∃ legs, config.plan state (priced mid) = some legs := by
  have proper : ¬ (mid ≤ 0 ∨ config.levels = 0 ∨ config.orderStepSize ≤ 0) := by
    rw [not_or, not_or]
    exact ⟨not_le.mpr positive, levels, not_le.mpr step⟩
  have some_ : ∃ ladder, config.levelsAt mid state.inventory = some ladder := ⟨_, if_neg proper⟩
  obtain ⟨ladder, same⟩ := some_
  exact ⟨ladder.flatMap PmmLevel.legs, by simp [PmmConfig.plan, currentMid_priced positive, same]⟩

/-- Cycles in which the mid is known make no call just if the mid creeps. -/
theorem PmmConfig.quiet_iff {config : PmmConfig} (levels : config.levels ≠ 0) (step : 0 < config.orderStepSize)
    (inventory prev : ℚ) {mids : List ℚ} (positive : ∀ mid ∈ mids, 0 < mid) :
    (run config.tick ⟨inventory, some prev⟩ (mids.map priced)).2 = [] ↔ config.Creeps (prev :: mids) := by
  induction mids generalizing prev with
  | nil => exact iff_of_true rfl (List.isChain_singleton _)
  | cons mid rest ih =>
    have here := positive mid List.mem_cons_self
    have later := ih mid fun other member => positive other (List.mem_cons_of_mem _ member)
    rw [List.map_cons, run, PmmConfig.Creeps, List.isChain_cons_cons]
    cases banded : withinPriceBand mid prev config.priceBand with
    | true =>
      have ticked : config.tick ⟨inventory, some prev⟩ (priced mid) = (⟨inventory, some mid⟩, []) := by
        simp [PmmConfig.tick, currentMid_priced here, banded]
      rw [ticked, List.nil_append, later, PmmConfig.Creeps]
      exact (and_iff_right rfl).symm
    | false =>
      obtain ⟨legs, planned⟩ := config.planned levels step ⟨inventory, some prev⟩ here
      have ticked : (config.tick ⟨inventory, some prev⟩ (priced mid)).2 =
          replace false (priced mid).answers (legs.map (Leg.order config.common)) := by
        simp [PmmConfig.tick, currentMid_priced here, banded, planned, requote]
      have willing : (priced mid).answers.cancels = true := rfl
      rw [ticked, replace, if_pos willing, List.cons_append]
      exact iff_of_false (List.cons_ne_nil _ _) fun both => Bool.false_ne_true both.1

theorem withinPriceBand_iff {current reference band : ℚ} (positive : 0 < reference) (width : 0 ≤ band) :
    withinPriceBand current reference band = true ↔ |current - reference| ≤ reference * band := by
  rw [withinPriceBand, if_neg (by rw [not_or, not_le, not_lt]; exact ⟨positive, width⟩), Bool.and_eq_true,
    decide_eq_true_iff, decide_eq_true_iff, abs_le]
  constructor
  · intro ⟨low, high⟩
    constructor <;> linarith
  · intro ⟨low, high⟩
    constructor <;> linarith

/-- Between two prices there is a path of small steps. -/
theorem exists_path {low change : ℚ} (count : Nat) {first last : ℚ} (start : low ≤ first) (stop : low ≤ last)
    (enough : |last - first| ≤ ((count + 1 : Nat) : ℚ) * change) :
    ∃ mids, (first :: mids).getLast? = some last ∧ (∀ mid ∈ mids, low ≤ mid) ∧
      (first :: mids).IsChain fun prev mid => low ≤ prev ∧ |mid - prev| ≤ change := by
  induction count generalizing first with
  | zero =>
    refine ⟨[last], rfl, by simpa using stop, ?_⟩
    rw [List.isChain_cons_cons]
    exact ⟨⟨start, by simpa using enough⟩, List.isChain_singleton _⟩
  | succ count ih =>
    have parts : (0 : ℚ) < ((count + 1 + 1 : Nat) : ℚ) := Nat.cast_pos.mpr (Nat.succ_pos _)
    have less : ((count + 1 + 1 : Nat) : ℚ) = ((count + 1 : Nat) : ℚ) + 1 := by push_cast; ring
    have some_ : (0 : ℚ) ≤ ((count + 1 : Nat) : ℚ) := Nat.cast_nonneg _
    let next := first + (last - first) / ((count + 1 + 1 : Nat) : ℚ)
    have near : |next - first| ≤ change := by
      rw [show next - first = (last - first) / ((count + 1 + 1 : Nat) : ℚ) from add_sub_cancel_left _ _, abs_div,
        abs_of_pos parts, div_le_iff₀ parts, mul_comm]
      exact enough
    have rest : last - next = (last - first) * (((count + 1 : Nat) : ℚ) / ((count + 1 + 1 : Nat) : ℚ)) := by
      simp only [next]
      field_simp
      rw [less]
      ring
    have fewer : |last - next| ≤ ((count + 1 : Nat) : ℚ) * change := by
      rw [rest, abs_mul, abs_of_nonneg (div_nonneg some_ parts.le), mul_div_assoc', div_le_iff₀ parts]
      calc |last - first| * ((count + 1 : Nat) : ℚ)
          ≤ ((count + 1 + 1 : Nat) : ℚ) * change * ((count + 1 : Nat) : ℚ) :=
            mul_le_mul_of_nonneg_right enough some_
        _ = ((count + 1 : Nat) : ℚ) * change * ((count + 1 + 1 : Nat) : ℚ) := by ring
    have above : low ≤ next := by
      have scaled : next * ((count + 1 + 1 : Nat) : ℚ) = first * ((count + 1 : Nat) : ℚ) + last := by
        simp only [next]
        field_simp
        rw [less]
        ring
      apply le_of_mul_le_mul_right _ parts
      rw [scaled, less, mul_add, mul_one]
      exact add_le_add (mul_le_mul_of_nonneg_right start some_) stop
    obtain ⟨mids, ends, all, path⟩ := ih above fewer
    refine ⟨next :: mids, by rwa [List.getLast?_cons_cons], ?_, ?_⟩
    · intro mid member
      rcases List.mem_cons.mp member with rfl | later
      · exact above
      · exact all mid later
    · exact List.isChain_cons_cons.mpr ⟨⟨start, near⟩, path⟩

/-- After it has quoted, the market maker makes no call just while each mid is in the band of the one before,
whatever the mid of its ladder was: so the ladder may rest while the market creeps to any other price. -/
theorem PmmConfig.ladder_is_left_behind (config : PmmConfig) (levels : config.levels ≠ 0)
    (step : 0 < config.orderStepSize) {first : ℚ} (start : 0 < first) :
    (∀ mids : List ℚ, (∀ mid ∈ mids, 0 < mid) →
      ((run config.tick ⟨0, none⟩ ((first :: mids).map priced)).2 = (config.tick ⟨0, none⟩ (priced first)).2 ↔
        config.Creeps (first :: mids))) ∧
    (0 < config.priceBand → ∀ last > 0, ∃ mids : List ℚ, (∀ mid ∈ mids, 0 < mid) ∧
      (first :: mids).getLast? = some last ∧
      (run config.tick ⟨0, none⟩ ((first :: mids).map priced)).2 = (config.tick ⟨0, none⟩ (priced first)).2) := by
  have quiet : ∀ mids : List ℚ, (∀ mid ∈ mids, 0 < mid) →
      ((run config.tick ⟨0, none⟩ ((first :: mids).map priced)).2 = (config.tick ⟨0, none⟩ (priced first)).2 ↔
        config.Creeps (first :: mids)) := by
    intro mids positive
    obtain ⟨legs, planned⟩ := config.planned levels step ⟨0, none⟩ start
    have ticked : (config.tick ⟨0, none⟩ (priced first)).1 = ⟨0, some first⟩ := by
      have willing : (priced first).answers.cancels = true := rfl
      simp [PmmConfig.tick, currentMid_priced start, planned, willing]
    rw [List.map_cons, run, List.append_right_eq_self, ticked]
    exact config.quiet_iff levels step 0 first positive
  refine ⟨quiet, fun band last there => ?_⟩
  have low : 0 < min first last := lt_min start there
  have change : 0 < min first last * config.priceBand := mul_pos low band
  obtain ⟨count, enough⟩ := exists_nat_ge (|last - first| / (min first last * config.priceBand))
  have within : |last - first| ≤ ((count + 1 : Nat) : ℚ) * (min first last * config.priceBand) := by
    rw [div_le_iff₀ change] at enough
    apply enough.trans (mul_le_mul_of_nonneg_right _ change.le)
    exact_mod_cast Nat.le_succ count
  obtain ⟨mids, ends, all, path⟩ := exists_path count (min_le_left first last) (min_le_right first last) within
  have positive : ∀ mid ∈ mids, 0 < mid := fun mid member => low.trans_le (all mid member)
  refine ⟨mids, positive, ends, (quiet mids positive).mpr ?_⟩
  apply path.imp
  intro prev mid small
  rw [withinPriceBand_iff (low.trans_le small.1) band.le]
  exact small.2.trans (mul_le_mul_of_nonneg_right small.1 band.le)

/-- The market maker as it is by default. -/
def defaultPmm : PmmConfig := ⟨⟨⟨"mock", ""⟩, "BTC/USDT"⟩, 3, 5 / 1000, 1 / 1000, 1 / 1000, 1 / 2, 1 / 10⟩

theorem ladder_is_left_behind_default :
    (∀ mids : List ℚ, (∀ mid ∈ mids, 0 < mid) →
      ((run defaultPmm.tick ⟨0, none⟩ ((100 :: mids).map priced)).2 =
          (defaultPmm.tick ⟨0, none⟩ (priced 100)).2 ↔ defaultPmm.Creeps (100 :: mids))) ∧
    (0 < defaultPmm.priceBand → ∀ last > 0, ∃ mids : List ℚ, (∀ mid ∈ mids, 0 < mid) ∧
      (100 :: mids).getLast? = some last ∧
      (run defaultPmm.tick ⟨0, none⟩ ((100 :: mids).map priced)).2 =
        (defaultPmm.tick ⟨0, none⟩ (priced 100)).2) :=
  defaultPmm.ladder_is_left_behind (by decide) (by norm_num [defaultPmm]) (by norm_num)

end Creep

end LongTrader.Strategy.Quoting
