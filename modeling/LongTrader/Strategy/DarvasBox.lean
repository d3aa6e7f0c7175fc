import LongTrader.Indicators.Rational
import LongTrader.Indicators.Rounded
import LongTrader.Strategy.Supertrend

/-! The Darvas box: a breakout from a box is entered with a market order, and a position is left when a
close falls out of the bar that it closes. Every index of the window is taken where Rust would check it,
so that a panic is an answer of its own. -/

namespace LongTrader.Strategy.DarvasBox

open Indicators (Arithmetic)
open Supertrend (Candle)

structure DarvasBoxConfig where
  exchangeId : ExchangeId
  symbol : String
  period : Nat
  boxBars : Nat
  qty : ℚ

inductive Phase where
  | flat
  | long
  | short
  deriving DecidableEq, Repr

/-- Where a tick panics: at a subtraction of lengths, an index, a slice, an `expect`, or an operator of
the decimals. -/
inductive Panic where
  | subtraction
  | index
  | slice
  | expect
  | decimal
  deriving DecidableEq, Repr

/-- What a tick reads: the candles, and what the venue says to its order, if it refuses it. -/
structure Reading (P : Type) where
  candles : Except PortError (List (Candle P))
  answer : Option PortError

/-- What a tick leaves and submits, and what it answers. -/
structure Ticked where
  phase : Phase
  submissions : List Submission
  answer : Except Panic (Except PortError Unit)

section Panics

variable {α : Type}

def lengthSub (first second : Nat) : Except Panic Nat :=
  if second ≤ first then .ok (first - second) else .error .subtraction

def index (values : List α) (position : Nat) : Except Panic α :=
  match values[position]? with
  | some value => .ok value
  | none => .error .index

/-- `values[from..upTo]`. -/
def slice (values : List α) (start upTo : Nat) : Except Panic (List α) :=
  if start ≤ upTo ∧ upTo ≤ values.length then .ok ((values.drop start).take (upTo - start))
  else .error .slice

def expect : Option α → Except Panic α
  | some value => .ok value
  | none => .error .expect

def operator : Option α → Except Panic α
  | some value => .ok value
  | none => .error .decimal

end Panics

/-- A decoded bar, as far as the strategy reads it. -/
structure Bar (P : Type) where
  high : P
  low : P
  close : P

/-- The bar of a candle that has all its prices. -/
def barOf {P : Type} (candle : Candle P) : Option (Bar P) :=
  match candle.high, candle.low, candle.close with
  | some (.ok high), some (.ok low), some (.ok close) => some ⟨high, low, close⟩
  | _, _, _ => none

section Ticks

variable {P : Type} [LinearOrder P] (arith : Arithmetic P) (config : DarvasBoxConfig)

/-- The middle of a bar, less half its range for a long and more for a short. -/
def band (long : Bool) (high low : P) : Option P := do
  let range ← arith.sub high low
  let sum ← arith.add high low
  let mid ← arith.div sum (arith.ofNat 2)
  let half ← arith.div range (arith.ofNat 2)
  if long then arith.sub mid half else arith.add mid half

/-- Whether the close of a held long has fallen below the band of its bar, and that of a held short risen
above it. -/
def crushed (long : Bool) (high low close : P) : Except Panic Bool := do
  let edge ← operator (band arith long high low)
  return if long then close < edge else edge < close

/-- Whether the last bar breaks out of the box before it: up behind a new high, down behind none. -/
def breakout (highs lows : List P) (lastIdx : Nat) (lastClose : P) : Except Panic (Option Bool) := do
  let scanEnd ← lengthSub lastIdx config.boxBars
  if scanEnd < config.period then return none
  let window ← slice highs 0 scanEnd
  let windowHigh ← expect window.max?
  let box ← slice highs scanEnd lastIdx
  let boxHigh ← expect box.max?
  let box ← slice lows scanEnd lastIdx
  let boxLow ← expect box.min?
  let before ← lengthSub scanEnd 1
  let last ← index highs before
  let boxRange ← operator (arith.sub boxHigh boxLow)
  if windowHigh ≤ last ∧ boxHigh < lastClose ∧ arith.ofNat 0 < boxRange then return some true
  else if ¬ windowHigh ≤ last ∧ lastClose < boxLow ∧ arith.ofNat 0 < boxRange then return some false
  else return none

/-- The order that the bars call for, as its side and the phase that it leads to. -/
def signal (held : Phase) (bars : List (Bar P)) : Except Panic (Option (Bool × Phase)) := do
  let highs := bars.map Bar.high
  let lows := bars.map Bar.low
  let closes := bars.map Bar.close
  let lastIdx ← lengthSub highs.length 1
  let lastClose ← index closes lastIdx
  match held with
  | .long =>
    let exits ← crushed arith true (← index highs lastIdx) (← index lows lastIdx) lastClose
    return if exits then some (false, .flat) else none
  | .short =>
    let exits ← crushed arith false (← index highs lastIdx) (← index lows lastIdx) lastClose
    return if exits then some (true, .flat) else none
  | .flat =>
    let entry ← breakout arith config highs lows lastIdx lastClose
    return entry.map fun isBuy => (isBuy, if isBuy then .long else .short)

/-- The order of a signal. The phase is written once the venue has accepted it. -/
def trade (held : Phase) (isBuy : Bool) (target : Phase) (answer : Option PortError) : Ticked :=
  let order := marketOrder config.exchangeId config.symbol isBuy config.qty
  match answer with
  | some error => ⟨held, [⟨order, false⟩], .ok (.error error)⟩
  | none => ⟨target, [⟨order, true⟩], .ok (.ok ())⟩

/-- `DarvasBox::tick`. -/
def tick (held : Phase) (reading : Reading P) : Ticked :=
  match reading.candles with
  | .error error => ⟨held, [], .ok (.error error)⟩
  | .ok candles =>
    let bars := candles.filterMap barOf
    if candles.length < config.period + config.boxBars then ⟨held, [], .ok (.ok ())⟩
    else if bars.length < config.period + config.boxBars then ⟨held, [], .ok (.ok ())⟩
    else match signal arith config held bars with
      | .error panic => ⟨held, [], .error panic⟩
      | .ok none => ⟨held, [], .ok (.ok ())⟩
      | .ok (some (isBuy, target)) => trade config held isBuy target reading.answer

/-- The phase after the ticks of a new strategy. -/
def phaseAfter (readings : List (Reading P)) : Phase :=
  readings.foldl (fun held reading => (tick arith config held reading).phase) .flat

end Ticks

section Positions

variable {α : Type}

theorem lengthSub_ok {first second : Nat} (fits : second ≤ first) :
    lengthSub first second = .ok (first - second) := if_pos fits

theorem index_ok {values : List α} {position : Nat} {value : α}
    (found : values[position]? = some value) : index values position = .ok value := by
  rw [index, found]

theorem slice_ok {values : List α} {start upTo : Nat} (ordered : start ≤ upTo)
    (fits : upTo ≤ values.length) :
    slice values start upTo = .ok ((values.drop start).take (upTo - start)) := if_pos ⟨ordered, fits⟩

theorem slice_ne_nil {values : List α} {start upTo : Nat} (longer : start < upTo)
    (fits : upTo ≤ values.length) : (values.drop start).take (upTo - start) ≠ [] := by
  rw [← List.length_pos_iff, List.length_take, List.length_drop]
  omega

theorem slice_replicate {count start upTo : Nat} (value : α) (rest : List α) (ordered : start ≤ upTo)
    (within : upTo ≤ count) :
    slice (List.replicate count value ++ rest) start upTo = .ok (List.replicate (upTo - start) value) := by
  have length : upTo ≤ (List.replicate count value ++ rest).length := by
    rw [List.length_append, List.length_replicate]
    omega
  rw [slice_ok ordered length, List.drop_append_of_le_length (by rw [List.length_replicate]; omega),
    List.drop_replicate, List.take_append_of_le_length (by rw [List.length_replicate]; omega),
    List.take_replicate, Nat.min_eq_left (by omega)]

theorem index_replicate {count position : Nat} (value : α) (rest : List α) (within : position < count) :
    index (List.replicate count value ++ rest) position = .ok value := by
  refine index_ok ?_
  rw [List.getElem?_append_left (by rwa [List.length_replicate]), List.getElem?_replicate, if_pos within]

theorem slice_cons (first : α) (rest : List α) (start upTo : Nat) :
    slice (first :: rest) (start + 1) (upTo + 1) = slice rest start upTo := by
  simp only [slice, List.length_cons, Nat.add_le_add_iff_right, List.drop_succ_cons, Nat.add_sub_add_right]

theorem slice_zero_cons (first : α) (rest : List α) (upTo : Nat) :
    slice (first :: rest) 0 (upTo + 1) = (slice rest 0 upTo).map (first :: ·) := by
  by_cases fits : upTo ≤ rest.length
  · rw [slice_ok (Nat.zero_le _) fits, slice_ok (Nat.zero_le _) (by simpa using fits)]
    rfl
  · rw [slice, slice, if_neg (by simpa using fits), if_neg (by simpa using fits)]
    rfl

theorem index_cons (first : α) (rest : List α) (position : Nat) :
    index (first :: rest) (position + 1) = index rest position := by
  rw [index, index, List.getElem?_cons_succ]

end Positions

section Safety

/-- A computation that panics at an operator of the decimals only. -/
def OnlyDecimal {α : Type} (result : Except Panic α) : Prop :=
  ∀ panic, result = .error panic → panic = .decimal

theorem OnlyDecimal.ok {α : Type} (value : α) : OnlyDecimal (.ok value) := by
  rintro _ ⟨⟩

theorem OnlyDecimal.operator {α : Type} (value : Option α) : OnlyDecimal (operator value) := by
  rintro panic failed
  cases value with
  | none =>
    cases failed
    rfl
  | some value => cases failed

theorem OnlyDecimal.bind {α β : Type} {first : Except Panic α} {next : α → Except Panic β}
    (safe : OnlyDecimal first) (rest : ∀ value, first = .ok value → OnlyDecimal (next value)) :
    OnlyDecimal (first >>= next) := by
  cases first with
  | error panic =>
    rintro _ ⟨⟩
    exact safe panic rfl
  | ok value => exact rest value rfl

/-- The extreme of a slice that is within the list and not empty. -/
theorem OnlyDecimal.scan {α β : Type} {values : List α} {start upTo : Nat} (longer : start < upTo)
    (fits : upTo ≤ values.length) {extreme : List α → Option α}
    (present : ∀ found, found ≠ [] → extreme found ≠ none) {next : α → Except Panic β}
    (rest : ∀ value, OnlyDecimal (next value)) :
    OnlyDecimal (slice values start upTo >>= fun found => expect (extreme found) >>= next) := by
  rw [slice_ok longer.le fits]
  refine .bind (.ok _) fun found found_eq => ?_
  obtain rfl := Except.ok.inj found_eq
  cases best : extreme ((values.drop start).take (upTo - start)) with
  | none => exact absurd best (present _ (slice_ne_nil longer fits))
  | some value => exact rest value

theorem max_present {P : Type} [Max P] (found : List P) (some_value : found ≠ []) : found.max? ≠ none :=
  fun absent => some_value (List.max?_eq_none_iff.mp absent)

theorem min_present {P : Type} [Min P] (found : List P) (some_value : found ≠ []) : found.min? ≠ none :=
  fun absent => some_value (List.min?_eq_none_iff.mp absent)

variable {P : Type} [LinearOrder P] {arith : Arithmetic P} {config : DarvasBoxConfig}

theorem crushed_onlyDecimal (long : Bool) (high low close : P) :
    OnlyDecimal (crushed arith long high low close) :=
  .bind (.operator _) fun _ _ => .ok _

/-- The box and the window before it are within the bars, and neither is empty. -/
theorem breakout_onlyDecimal (period : 0 < config.period) (box : 0 < config.boxBars) {highs lows : List P}
    (aligned : lows.length = highs.length) {lastIdx : Nat} (last : lastIdx < highs.length)
    (enough : config.period + config.boxBars ≤ lastIdx + 1) (lastClose : P) :
    OnlyDecimal (breakout arith config highs lows lastIdx lastClose) := by
  have fits : config.boxBars ≤ lastIdx := by omega
  rw [breakout, lengthSub_ok fits]
  refine .bind (.ok _) fun scanEnd end_eq => ?_
  obtain rfl := Except.ok.inj end_eq
  by_cases short : lastIdx - config.boxBars < config.period
  · rw [if_pos short]
    exact .ok _
  rw [if_neg short]
  have window : 0 < lastIdx - config.boxBars := by omega
  have boxed : lastIdx - config.boxBars < lastIdx := by omega
  have present := List.getElem?_eq_getElem (by omega : lastIdx - config.boxBars - 1 < highs.length)
  refine .scan window (by omega) max_present fun windowHigh => ?_
  refine .scan boxed last.le max_present fun boxHigh => ?_
  refine .scan boxed (by omega) min_present fun boxLow => ?_
  rw [lengthSub_ok (by omega : 1 ≤ lastIdx - config.boxBars)]
  refine .bind (.ok _) fun before before_eq => ?_
  obtain rfl := Except.ok.inj before_eq
  rw [index_ok present]
  refine .bind (.ok _) fun latest _ => .bind (.operator _) fun boxRange _ => ?_
  split
  · exact .ok _
  split
  · exact .ok _
  · exact .ok _

/-- In a held state only the last bar counts. -/
theorem signal_held {bars : List (Bar P)} {last : Bar P} (ends : bars.getLast? = some last) :
    signal arith config .long bars = (crushed arith true last.high last.low last.close).map
        (fun exits => if exits then some (false, .flat) else none) ∧
      signal arith config .short bars = (crushed arith false last.high last.low last.close).map
        fun exits => if exits then some (true, .flat) else none := by
  rw [List.getLast?_eq_getElem?] at ends
  have some_bar : 1 ≤ bars.length := by
    rcases bars with _ | ⟨first, rest⟩
    · simp at ends
    · simp
  have mapped : ∀ price : Bar P → P, (bars.map price)[bars.length - 1]? = some (price last) := by
    intro price
    rw [List.getElem?_map, ends]
    rfl
  have length : lengthSub (bars.map Bar.high).length 1 = .ok (bars.length - 1) := by
    rw [List.length_map, lengthSub_ok some_bar]
  unfold signal
  simp only [length, bind, Except.bind, index_ok (mapped _)]
  exact ⟨rfl, rfl⟩

theorem OnlyDecimal.map {α β : Type} {result : Except Panic α} (safe : OnlyDecimal result) (f : α → β) :
    OnlyDecimal (result.map f) := by
  cases result with
  | error panic =>
    rintro _ ⟨⟩
    exact safe panic rfl
  | ok value => exact .ok _

theorem signal_onlyDecimal (period : 0 < config.period) (box : 0 < config.boxBars) (held : Phase)
    {bars : List (Bar P)} (enough : config.period + config.boxBars ≤ bars.length) :
    OnlyDecimal (signal arith config held bars) := by
  have some_bar : bars.length - 1 < bars.length := by omega
  have ends : bars.getLast? = some bars[bars.length - 1] := by
    rw [List.getLast?_eq_getElem?, List.getElem?_eq_getElem some_bar]
  obtain ⟨long, short⟩ := @signal_held P _ arith config _ _ ends
  cases held with
  | flat =>
    have within : bars.length - 1 < (bars.map Bar.close).length := by simpa using some_bar
    have close := List.getElem?_eq_getElem within
    rw [signal, List.length_map, lengthSub_ok (by omega)]
    refine .bind (.ok _) fun lastIdx last_eq => ?_
    obtain rfl := Except.ok.inj last_eq
    rw [index_ok close]
    refine .bind (.ok _) fun lastClose _ => ?_
    refine .bind (breakout_onlyDecimal period box ?_ ?_ ?_ lastClose) fun entry _ => .ok _
    · simp
    · simpa using some_bar
    · omega
  | long =>
    rw [long]
    exact .map (crushed_onlyDecimal _ _ _ _) _
  | short =>
    rw [short]
    exact .map (crushed_onlyDecimal _ _ _ _) _

/-- With a period and a box, no index, slice, `expect` or subtraction of a tick panics. -/
theorem tick_onlyDecimal (period : 0 < config.period) (box : 0 < config.boxBars) (held : Phase)
    (reading : Reading P) : OnlyDecimal (tick arith config held reading).answer := by
  rw [tick]
  split
  · exact .ok _
  dsimp only
  split
  · exact .ok _
  split
  · exact .ok _
  rename_i enough
  have safe := @signal_onlyDecimal P _ arith config period box held _ (not_lt.mp enough)
  split
  · rename_i panic failed
    rintro _ ⟨⟩
    exact safe panic failed
  · exact .ok _
  · unfold trade
    split
    · exact .ok _
    · exact .ok _

end Safety

/-- The candle of a bar. -/
def candleOf {P : Type} (bar : Bar P) : Candle P :=
  ⟨some (.ok bar.high), some (.ok bar.low), some (.ok bar.close)⟩

theorem filterMap_candleOf {P : Type} (bars : List (Bar P)) : (bars.map candleOf).filterMap barOf = bars := by
  induction bars with
  | nil => rfl
  | cons bar rest ih =>
    have decoded : barOf (candleOf bar) = some bar := rfl
    rw [List.map_cons, List.filterMap_cons_some decoded, ih]

section Bars

variable {P : Type} [LinearOrder P] {arith : Arithmetic P} {config : DarvasBoxConfig}

/-- A tick on complete candles, with a venue that accepts. -/
theorem tick_panics {held : Phase} {bars : List (Bar P)} {panic : Panic}
    (enough : config.period + config.boxBars ≤ bars.length)
    (failed : signal arith config held bars = .error panic) :
    (tick arith config held ⟨.ok (bars.map candleOf), none⟩).answer = .error panic := by
  simp only [tick, filterMap_candleOf, List.length_map, if_neg enough.not_gt, failed]

theorem tick_trades {held target : Phase} {isBuy : Bool} {bars : List (Bar P)}
    (enough : config.period + config.boxBars ≤ bars.length)
    (calls : signal arith config held bars = .ok (some (isBuy, target))) :
    (tick arith config held ⟨.ok (bars.map candleOf), none⟩).phase = target := by
  simp only [tick, filterMap_candleOf, List.length_map, if_neg enough.not_gt, calls, trade]

/-- A tick that leaves its phase has been called for by the bars. -/
theorem signal_of_leaves {held : Phase} {reading : Reading P}
    (leaves : (tick arith config held reading).phase ≠ held) :
    ∃ candles isBuy target, reading.candles = .ok candles ∧
      signal arith config held (candles.filterMap barOf) = .ok (some (isBuy, target)) := by
  unfold tick at leaves
  split at leaves
  · exact absurd rfl leaves
  rename_i candles read
  dsimp only at leaves
  split at leaves
  · exact absurd rfl leaves
  split at leaves
  · exact absurd rfl leaves
  split at leaves
  · exact absurd rfl leaves
  · exact absurd rfl leaves
  · rename_i isBuy target calls
    exact ⟨candles, isBuy, target, read, calls⟩

theorem max?_of_head {first : P} {rest : List P} (greatest : ∀ value ∈ rest, value ≤ first) :
    (first :: rest).max? = some first := by
  rw [List.max?_cons']
  congr 1
  induction rest with
  | nil => rfl
  | cons value rest ih =>
    obtain ⟨here, others⟩ := List.forall_mem_cons.mp greatest
    rw [List.foldl_cons, max_eq_left here]
    exact ih others

theorem min?_of_head {first : P} {rest : List P} (least : ∀ value ∈ rest, first ≤ value) :
    (first :: rest).min? = some first := by
  rw [List.min?_cons']
  congr 1
  induction rest with
  | nil => rfl
  | cons value rest ih =>
    obtain ⟨here, others⟩ := List.forall_mem_cons.mp least
    rw [List.foldl_cons, min_eq_left here]
    exact ih others

theorem max?_replicate {count : Nat} (positive : 0 < count) (value : P) :
    (List.replicate count value).max? = some value := by
  obtain ⟨count, rfl⟩ := Nat.exists_eq_succ_of_ne_zero positive.ne'
  exact max?_of_head fun other member => (List.eq_of_mem_replicate member).le

theorem min?_replicate {count : Nat} (positive : 0 < count) (value : P) :
    (List.replicate count value).min? = some value := by
  obtain ⟨count, rfl⟩ := Nat.exists_eq_succ_of_ne_zero positive.ne'
  exact min?_of_head fun other member => (List.eq_of_mem_replicate member).ge

/-- A breakout, from the window and the box that it is read off. -/
theorem breakout_eq {highs lows window box boxLows : List P} {lastIdx scanEnd before : Nat}
    {windowHigh boxHigh boxLow latest range : P} (lastClose : P)
    (ends : lengthSub lastIdx config.boxBars = .ok scanEnd) (full : config.period ≤ scanEnd)
    (windowed : slice highs 0 scanEnd = .ok window) (windowMax : window.max? = some windowHigh)
    (boxed : slice highs scanEnd lastIdx = .ok box) (boxMax : box.max? = some boxHigh)
    (boxedLows : slice lows scanEnd lastIdx = .ok boxLows) (boxMin : boxLows.min? = some boxLow)
    (preceding : lengthSub scanEnd 1 = .ok before) (last : index highs before = .ok latest)
    (ranged : arith.sub boxHigh boxLow = some range) :
    breakout arith config highs lows lastIdx lastClose = .ok (
      if windowHigh ≤ latest ∧ boxHigh < lastClose ∧ arith.ofNat 0 < range then some true
      else if ¬ windowHigh ≤ latest ∧ lastClose < boxLow ∧ arith.ofNat 0 < range then some false
      else none) := by
  simp only [breakout, ends, windowed, windowMax, boxed, boxMax, boxedLows, boxMin, preceding, last, ranged,
    bind, Except.bind, expect, operator, if_neg full.not_gt]
  split
  · rfl
  split
  · rfl
  · rfl

/-- What the candles of a breakout need of the decimals: four prices, and a positive range of the middle
ones. -/
structure Prices (arith : Arithmetic P) (bottom low high top range : P) : Prop where
  bottom_lt : bottom < low
  low_lt : low < high
  lt_top : high < top
  ranged : arith.sub high low = some range
  positive : arith.ofNat 0 < range

variable {bottom low high top range : P}

/-- A period and a box at one price, and a close above it. -/
def rise (config : DarvasBoxConfig) (low high top : P) : List (Bar P) :=
  List.replicate (config.period + config.boxBars) ⟨high, low, high⟩ ++ [⟨top, low, top⟩]

theorem signal_rise (prices : Prices arith bottom low high top range) (period : 0 < config.period)
    (box : 0 < config.boxBars) :
    signal arith config .flat (rise config low high top) = .ok (some (true, .long)) := by
  have ends : lengthSub (config.period + config.boxBars) config.boxBars = .ok config.period := by
    rw [lengthSub_ok (Nat.le_add_left ..), Nat.add_sub_cancel]
  have breaks := breakout_eq top ends (Nat.le_refl _)
    (slice_replicate high [top] (Nat.zero_le _) (Nat.le_add_right ..)) (max?_replicate (by omega) _)
    (slice_replicate high [top] (Nat.le_add_right ..) (Nat.le_refl _)) (max?_replicate (by omega) _)
    (slice_replicate low [low] (Nat.le_add_right ..) (Nat.le_refl _)) (min?_replicate (by omega) _)
    (lengthSub_ok period) (index_replicate high [top] (by omega)) prices.ranged
  rw [if_pos ⟨le_rfl, prices.lt_top, prices.positive⟩] at breaks
  have last : index (List.replicate (config.period + config.boxBars) high ++ [top])
      (config.period + config.boxBars) = .ok top := index_ok (by simp)
  simp only [signal, rise, List.map_append, List.map_replicate, List.map_singleton, List.length_append,
    List.length_replicate, List.length_singleton, lengthSub_ok (Nat.le_add_left 1 _), Nat.add_sub_cancel, bind,
    Except.bind, last, breaks]
  rfl

/-- A high that the bars after it do not reach, and a close below the box. -/
def fall (config : DarvasBoxConfig) (bottom low high top : P) : List (Bar P) :=
  ⟨top, low, high⟩ :: (List.replicate (config.period + config.boxBars) ⟨high, low, high⟩ ++
    [⟨high, bottom, bottom⟩])

theorem signal_fall (prices : Prices arith bottom low high top range) (period : 0 < config.period)
    (box : 0 < config.boxBars) :
    signal arith config .flat (fall config bottom low high top) = .ok (some (false, .short)) := by
  obtain ⟨earlier, period_eq⟩ := Nat.exists_eq_succ_of_ne_zero period.ne'
  have ends : lengthSub (config.period + config.boxBars + 1) config.boxBars = .ok (config.period + 1) := by
    rw [lengthSub_ok (by omega)]
    congr 1
    omega
  have windowed : slice (top :: (List.replicate (config.period + config.boxBars) high ++ [high])) 0
      (config.period + 1) = .ok (top :: List.replicate config.period high) := by
    rw [slice_zero_cons, slice_replicate high [high] (Nat.zero_le _) (Nat.le_add_right ..)]
    rfl
  have highest : (top :: List.replicate config.period high).max? = some top :=
    max?_of_head fun other member => (List.eq_of_mem_replicate member).le.trans prices.lt_top.le
  have boxed : slice (top :: (List.replicate (config.period + config.boxBars) high ++ [high]))
      (config.period + 1) (config.period + config.boxBars + 1) = .ok (List.replicate config.boxBars high) := by
    rw [slice_cons, slice_replicate high [high] (Nat.le_add_right ..) (Nat.le_refl _), Nat.add_sub_cancel_left]
  have boxedLows : slice (low :: (List.replicate (config.period + config.boxBars) low ++ [bottom]))
      (config.period + 1) (config.period + config.boxBars + 1) = .ok (List.replicate config.boxBars low) := by
    rw [slice_cons, slice_replicate low [bottom] (Nat.le_add_right ..) (Nat.le_refl _), Nat.add_sub_cancel_left]
  have latest : index (top :: (List.replicate (config.period + config.boxBars) high ++ [high])) config.period =
      .ok high := by
    rw [period_eq, index_cons, index_replicate high [high] (by omega)]
  have breaks := breakout_eq bottom ends (Nat.le_succ _) windowed highest boxed (max?_replicate box _) boxedLows
    (min?_replicate box _) (lengthSub_ok (Nat.le_add_left 1 _)) latest prices.ranged
  rw [if_neg fun rising => prices.lt_top.not_ge rising.1,
    if_pos ⟨prices.lt_top.not_ge, prices.bottom_lt, prices.positive⟩] at breaks
  have last : index (high :: (List.replicate (config.period + config.boxBars) high ++ [bottom]))
      (config.period + config.boxBars + 1) = .ok bottom := index_ok (by simp)
  simp only [signal, fall, List.map_cons, List.map_append, List.map_replicate, List.map_nil, List.length_cons,
    List.length_append, List.length_replicate, List.length_nil, lengthSub_ok (Nat.le_add_left 1 _),
    Nat.add_sub_cancel, Nat.zero_add, bind, Except.bind, last, breaks]
  rfl

/-- With a period and a box, both sides are entered. -/
theorem held_reachable (prices : Prices arith bottom low high top range) (period : 0 < config.period)
    (box : 0 < config.boxBars) :
    (∃ readings, phaseAfter arith config readings = .long) ∧
      ∃ readings, phaseAfter arith config readings = .short := by
  refine ⟨⟨[⟨.ok ((rise config low high top).map candleOf), none⟩], ?_⟩,
    ⟨[⟨.ok ((fall config bottom low high top).map candleOf), none⟩], ?_⟩⟩
  · exact tick_trades (by simp [rise]) (signal_rise prices period box)
  · exact tick_trades (by simp [fall]; omega) (signal_fall prices period box)

/-- As many bars as the box has leave none for the breakout. -/
theorem boxful_panics (bar : Bar P) :
    signal arith config .flat (List.replicate config.boxBars bar) = .error .subtraction := by
  cases bars_eq : config.boxBars with
  | zero => rfl
  | succ count =>
    have last : index (List.replicate (count + 1) bar.close) count = .ok bar.close :=
      index_ok (by simp)
    have outside : lengthSub count (count + 1) = .error .subtraction := if_neg (Nat.not_succ_le_self count)
    simp only [signal, List.map_replicate, List.length_replicate, lengthSub_ok (Nat.le_add_left 1 _),
      Nat.add_sub_cancel, bind, Except.bind, last, breakout, bars_eq, outside]

/-- Without a box, nothing is between the window and the last bar. -/
theorem zero_box_panics (bar : Bar P) (period : 0 < config.period) (zero : config.boxBars = 0) :
    signal arith config .flat (List.replicate (config.period + 1) bar) = .error .expect := by
  have last : index (List.replicate (config.period + 1) bar.close) config.period = .ok bar.close :=
    index_ok (by simp)
  have windowed : slice (List.replicate (config.period + 1) bar.high) 0 config.period =
      .ok (List.replicate config.period bar.high) := by
    rw [slice_ok (Nat.zero_le _) (by simp), List.drop_zero, List.take_replicate, Nat.sub_zero,
      Nat.min_eq_left (Nat.le_succ _)]
  have boxed : slice (List.replicate (config.period + 1) bar.high) config.period config.period = .ok [] := by
    rw [slice_ok (Nat.le_refl _) (by simp), Nat.sub_self, List.take_zero]
  simp only [signal, List.map_replicate, List.length_replicate, lengthSub_ok (Nat.le_add_left 1 _),
    Nat.add_sub_cancel, bind, Except.bind, last, breakout, zero, Nat.sub_zero, lengthSub_ok (Nat.zero_le _),
    lt_irrefl, if_false, windowed, max?_replicate period, expect, boxed, List.max?_nil]

/-- Without a period or without a box, a tick of a new strategy panics. -/
theorem zero_panics (bar : Bar P) (zero : config.period = 0 ∨ config.boxBars = 0) :
    ∃ reading, ¬ OnlyDecimal (tick arith config .flat reading).answer := by
  by_cases period : config.period = 0
  · refine ⟨⟨.ok ((List.replicate config.boxBars bar).map candleOf), none⟩, fun safe => ?_⟩
    have enough : config.period + config.boxBars ≤ (List.replicate config.boxBars bar).length := by
      simp [period]
    cases safe _ (tick_panics enough (boxful_panics bar))
  · have box := zero.resolve_left period
    refine ⟨⟨.ok ((List.replicate (config.period + 1) bar).map candleOf), none⟩, fun safe => ?_⟩
    have enough : config.period + config.boxBars ≤ (List.replicate (config.period + 1) bar).length := by
      simp [box]
    cases safe _ (tick_panics enough (zero_box_panics bar (Nat.pos_of_ne_zero period) box))

/-- The decimals round the band of some bar into its range: above its low for a long, below its high for a
short. -/
def RoundsWithin (arith : Arithmetic P) (long : Bool) : Prop :=
  ∃ high low edge : P, low ≤ high ∧ band arith long high low = some edge ∧
    if long then low < edge else edge < high

/-- A band is rounded into its bar just when a close within the bar crushes. -/
theorem roundsWithin_iff (long : Bool) :
    RoundsWithin arith long ↔
      ∃ high low close : P, low ≤ close ∧ close ≤ high ∧ crushed arith long high low close = .ok true := by
  constructor
  · rintro ⟨high, low, edge, ordered, edge_eq, within⟩
    cases long with
    | true => exact ⟨high, low, low, le_rfl, ordered, by simpa [crushed, edge_eq, operator] using within⟩
    | false => exact ⟨high, low, high, ordered, le_rfl, by simpa [crushed, edge_eq, operator] using within⟩
  · rintro ⟨high, low, close, low_le, le_high, exits⟩
    cases edge_eq : band arith long high low with
    | none =>
      rw [crushed, edge_eq] at exits
      cases exits
    | some edge =>
      rw [crushed, edge_eq] at exits
      have beyond := Except.ok.inj exits
      refine ⟨high, low, edge, low_le.trans le_high, edge_eq, ?_⟩
      cases long with
      | true => exact low_le.trans_lt (by simpa using beyond)
      | false => exact lt_of_lt_of_le (by simpa using beyond) le_high

/-- A candle that closes within its range. -/
def WellFormed (candle : Candle P) : Prop :=
  ∃ bar, barOf candle = some bar ∧ bar.low ≤ bar.close ∧ bar.close ≤ bar.high

/-- No tick of a run panics outside the decimals, and every position that a run leads to is left on some
well-formed candles. -/
structure Sound (arith : Arithmetic P) (config : DarvasBoxConfig) : Prop where
  safe : ∀ readings reading, OnlyDecimal (tick arith config (phaseAfter arith config readings) reading).answer
  exits : ∀ readings, phaseAfter arith config readings ≠ .flat → ∃ candles : List (Candle P),
    (∀ candle ∈ candles, WellFormed candle) ∧
      (tick arith config (phaseAfter arith config readings) ⟨.ok candles, none⟩).phase = .flat

/-- The phase of a position on a side. -/
def Phase.held (long : Bool) : Phase := if long then .long else .short

theorem Phase.held_ne_flat (long : Bool) : Phase.held long ≠ .flat := by cases long <;> decide

theorem signal_held_eq (long : Bool) {bars : List (Bar P)} {last : Bar P} (ends : bars.getLast? = some last) :
    signal arith config (.held long) bars = (crushed arith long last.high last.low last.close).map
      fun exits => if exits then some (!long, .flat) else none := by
  cases long
  · exact (signal_held ends).2
  · exact (signal_held ends).1

/-- A position that is left on well-formed candles is left by a close within its bar. -/
theorem roundsWithin_of_leaves {long : Bool} {candles : List (Candle P)}
    (wellFormed : ∀ candle ∈ candles, WellFormed candle)
    (leaves : (tick arith config (.held long) ⟨.ok candles, none⟩).phase = .flat) :
    RoundsWithin arith long := by
  obtain ⟨_, isBuy, target, ⟨⟩, calls⟩ :=
    signal_of_leaves (by rw [leaves]; exact (Phase.held_ne_flat long).symm)
  cases ends : (candles.filterMap barOf).getLast? with
  | none =>
    rw [List.getLast?_eq_none_iff.mp ends] at calls
    cases calls
  | some last =>
    obtain ⟨candle, member, decoded⟩ := List.mem_filterMap.mp (List.mem_of_getLast? ends)
    obtain ⟨bar, bar_eq, low_le, le_high⟩ := wellFormed candle member
    obtain rfl := Option.some.inj (bar_eq.symm.trans decoded)
    refine (roundsWithin_iff long).mpr ⟨bar.high, bar.low, bar.close, low_le, le_high, ?_⟩
    rw [signal_held_eq long ends] at calls
    cases exits : crushed arith long bar.high bar.low bar.close with
    | error panic =>
      rw [exits] at calls
      cases calls
    | ok left =>
      rw [exits] at calls
      cases left with
      | false => cases calls
      | true => rfl

/-- A position is left on bars whose last one crushes. -/
theorem leaves_of_roundsWithin {long : Bool} (rounds : RoundsWithin arith long)
    (bars : 0 < config.period + config.boxBars) :
    ∃ candles : List (Candle P), (∀ candle ∈ candles, WellFormed candle) ∧
      (tick arith config (.held long) ⟨.ok candles, none⟩).phase = .flat := by
  obtain ⟨high, low, close, low_le, le_high, exits⟩ := (roundsWithin_iff long).mp rounds
  refine ⟨(List.replicate (config.period + config.boxBars) ⟨high, low, close⟩).map candleOf, ?_, ?_⟩
  · intro candle member
    obtain ⟨bar, copied, rfl⟩ := List.mem_map.mp member
    obtain rfl := List.eq_of_mem_replicate copied
    exact ⟨_, rfl, low_le, le_high⟩
  · have ends : (List.replicate (config.period + config.boxBars) (⟨high, low, close⟩ : Bar P)).getLast? =
        some ⟨high, low, close⟩ := by
      rw [List.getLast?_replicate, if_neg bars.ne']
    have calls : signal arith config (.held long)
        (List.replicate (config.period + config.boxBars) ⟨high, low, close⟩) = .ok (some (!long, .flat)) := by
      rw [signal_held_eq long ends, exits]
      rfl
    exact tick_trades (by rw [List.length_replicate]) calls

/-- The strategy is sound exactly when it has a period and a box, and the decimals round the band of some bar
into its range, on either side. -/
theorem darvas_box_sound_iff (prices : Prices arith bottom low high top range) :
    Sound arith config ↔
      0 < config.period ∧ 0 < config.boxBars ∧ RoundsWithin arith true ∧ RoundsWithin arith false := by
  constructor
  · intro sound
    have lengths : 0 < config.period ∧ 0 < config.boxBars := by
      by_contra zero
      obtain ⟨reading, panics⟩ := @zero_panics P _ arith config ⟨high, low, high⟩ (by omega)
      exact panics (sound.safe [] reading)
    obtain ⟨period, box⟩ := lengths
    obtain ⟨⟨rises, long⟩, ⟨falls, short⟩⟩ := held_reachable prices period box
    obtain ⟨longCandles, longFormed, longLeaves⟩ := sound.exits rises (by rw [long]; decide)
    obtain ⟨shortCandles, shortFormed, shortLeaves⟩ := sound.exits falls (by rw [short]; decide)
    rw [long] at longLeaves
    rw [short] at shortLeaves
    exact ⟨period, box, roundsWithin_of_leaves longFormed longLeaves,
      roundsWithin_of_leaves shortFormed shortLeaves⟩
  · rintro ⟨period, box, longRounds, shortRounds⟩
    refine ⟨fun readings reading => tick_onlyDecimal period box _ reading, fun readings held => ?_⟩
    cases phase : phaseAfter arith config readings with
    | flat => exact absurd phase held
    | long => exact leaves_of_roundsWithin longRounds (by omega)
    | short => exact leaves_of_roundsWithin shortRounds (by omega)

end Bars

section Exact

open Indicators

/-- In exact arithmetic the band of a bar is its low, or its high. -/
theorem band_rational (long : Bool) (high low : ℚ) :
    band Arithmetic.rational long high low = some (if long then low else high) := by
  have two : ((2 : Nat) : ℚ) ≠ 0 := by norm_num
  cases long with
  | true =>
    have lower : (high + low) / (2 : Nat) - (high - low) / (2 : Nat) = low := by ring
    simp only [band, rational_sub, rational_add, rational_ofNat, rational_div _ two, Option.bind_some, bind,
      lower, if_true]
  | false =>
    have upper : (high + low) / (2 : Nat) + (high - low) / (2 : Nat) = high := by ring
    simp only [band, rational_sub, rational_add, rational_ofNat, rational_div _ two, Option.bind_some, bind,
      upper, Bool.false_eq_true, if_false]

theorem not_roundsWithin_rational (long : Bool) : ¬ RoundsWithin Arithmetic.rational long := by
  rintro ⟨high, low, edge, -, edge_eq, within⟩
  obtain rfl := Option.some.inj ((band_rational long high low).symm.trans edge_eq)
  cases long
  · exact lt_irrefl high within
  · exact lt_irrefl low within

/-- In exact arithmetic no position is ever left on well-formed candles. -/
theorem held_stays {config : DarvasBoxConfig} {long : Bool} {candles : List (Candle ℚ)}
    (wellFormed : ∀ candle ∈ candles, WellFormed candle) :
    (tick Arithmetic.rational config (.held long) ⟨.ok candles, none⟩).phase ≠ .flat :=
  fun leaves => not_roundsWithin_rational long (roundsWithin_of_leaves wellFormed leaves)

end Exact

/-- The config of the tests of the strategy, without a period. -/
def noPeriod : DarvasBoxConfig := ⟨⟨"mock", ""⟩, "BTC/USDT", 0, 2, 1 / 2⟩

theorem Prices.rounded : Prices Arithmetic.rounded 1 2 3 4 1 where
  bottom_lt := by norm_num
  low_lt := by norm_num
  lt_top := by norm_num
  ranged := by decide +kernel
  positive := by decide +kernel

theorem noPeriod_unsound : ¬ Sound Arithmetic.rounded noPeriod :=
  fun sound => absurd ((darvas_box_sound_iff .rounded).mp sound).1 (by decide)

/-- Without a period, two candles make a tick of a new strategy panic. -/
theorem noPeriod_panics :
    (tick Arithmetic.rounded noPeriod .flat
      ⟨.ok ((List.replicate 2 (⟨3, 2, 3⟩ : Bar ℚ)).map candleOf), none⟩).answer = .error .subtraction :=
  tick_panics (by decide) (boxful_panics _)

end LongTrader.Strategy.DarvasBox
