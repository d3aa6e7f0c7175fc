import LongTrader.Strategy.Traders

/-! What the traders of one unit hold: at every moment what they say they hold, each order that opens a position
followed by the one that closes it. -/

namespace LongTrader.Strategy.Traders

open Supertrend (Phase position position_append signed)

/-- A signal that opens from nothing, or closes what is held. -/
def Signal.Fits : Phase → Signal → Prop
  | .flat, .enter _ | .long, .exit | .short, .exit => True
  | _, _ => False

theorem signalOf_fits {held : Phase} {long short leavesLong leavesShort : Prop} [Decidable long] [Decidable short]
    [Decidable leavesLong] [Decidable leavesShort] {signal : Signal}
    (given : signalOf held long short leavesLong leavesShort = some signal) : signal.Fits held := by
  cases held with
  | flat =>
    rw [signalOf] at given
    split at given
    · obtain rfl := Option.some.inj given
      trivial
    · obtain ⟨_, same⟩ := Option.ite_none_right_eq_some.mp given
      obtain rfl := Option.some.inj same
      trivial
  | long =>
    obtain ⟨_, same⟩ := Option.ite_none_right_eq_some.mp given
    obtain rfl := Option.some.inj same
    trivial
  | short =>
    obtain ⟨_, same⟩ := Option.ite_none_right_eq_some.mp given
    obtain rfl := Option.some.inj same
    trivial

/-- All the signals of a trader open from nothing or close what is held. -/
def Orderly (signal : Phase → List Candle → Option Signal) : Prop :=
  ∀ held candles given, signal held candles = some given → given.Fits held

theorem AdxTrendConfig.orderly (config : AdxTrendConfig) : Orderly config.signal := by
  intro held candles given told
  simp only [AdxTrendConfig.signal, Option.bind_eq_bind, Option.bind_eq_some_iff] at told
  obtain ⟨_, _, _, _, _, _, _, _, told⟩ := told
  exact signalOf_fits told

theorem BbKeltnerSqueezeConfig.orderly (config : BbKeltnerSqueezeConfig) : Orderly config.signal := by
  intro held candles given told
  simp only [BbKeltnerSqueezeConfig.signal, Option.bind_eq_bind, Option.bind_eq_some_iff] at told
  obtain ⟨_, _, _, _, _, _, _, _, _, _, _, _, told⟩ := told
  exact signalOf_fits told

theorem CvdDivergenceConfig.orderly (config : CvdDivergenceConfig) : Orderly config.signal := by
  intro held candles given told
  rw [CvdDivergenceConfig.signal] at told
  obtain ⟨_, told⟩ := Option.ite_none_left_eq_some.mp told
  simp only [Option.bind_eq_bind, Option.bind_eq_some_iff] at told
  obtain ⟨_, _, _, _, told⟩ := told
  exact signalOf_fits told

theorem DualThrustConfig.orderly (config : DualThrustConfig) : Orderly config.signal := by
  intro held candles given told
  simp only [DualThrustConfig.signal, Option.bind_eq_bind, Option.bind_eq_some_iff] at told
  obtain ⟨_, _, _, _, _, _, told⟩ := told
  exact signalOf_fits told

theorem MomentumFactorConfig.orderly (config : MomentumFactorConfig) : Orderly config.signal := by
  intro held candles given told
  simp only [MomentumFactorConfig.signal, Option.bind_eq_bind, Option.bind_eq_some_iff] at told
  obtain ⟨_, _, _, _, _, _, told⟩ := told
  exact signalOf_fits told

theorem MeanReversionConfig.orderly (config : MeanReversionConfig) : Orderly config.signal := by
  intro held candles given told
  rw [MeanReversionConfig.signal] at told
  obtain ⟨_, told⟩ := Option.ite_none_left_eq_some.mp told
  simp only [Option.bind_eq_bind, Option.bind_eq_some_iff] at told
  obtain ⟨z, _, told⟩ := told
  cases held with
  | flat =>
    obtain ⟨score, _, told⟩ := Option.bind_eq_some_iff.mp told
    cases given with
    | enter isBuy => trivial
    | exit =>
      split at told
      · cases told
      · cases (Option.ite_none_right_eq_some.mp told).2
  | long =>
    obtain ⟨_, same⟩ := Option.ite_none_right_eq_some.mp told
    obtain rfl := Option.some.inj same
    trivial
  | short =>
    obtain ⟨_, same⟩ := Option.ite_none_right_eq_some.mp told
    obtain rfl := Option.some.inj same
    trivial

theorem IchimokuConfig.orderly (config : IchimokuConfig) : Orderly config.signal := by
  intro held candles given told
  rw [IchimokuConfig.signal] at told
  obtain ⟨_, told⟩ := Option.ite_none_left_eq_some.mp told
  simp only [Option.bind_eq_bind, Option.bind_eq_some_iff] at told
  obtain ⟨_, _, _, _, _, _, _, _, told⟩ := told
  exact signalOf_fits told

/-- An order moves the phase by one unit, to nothing or from nothing. -/
def Moves (held target : Phase) (isBuy : Bool) : Prop :=
  target.units - held.units = (if isBuy then 1 else -1 : ℚ) ∧ (held = .flat ↔ target ≠ .flat)

theorem Signal.Fits.moves {held : Phase} {signal : Signal} (fits : signal.Fits held) :
    Moves held signal.target (signal.isBuy held) := by
  cases held with
  | flat =>
    cases signal with
    | enter isBuy => cases isBuy <;> simp [Moves, Signal.target, Signal.isBuy, Supertrend.Phase.units]
    | exit => cases fits
  | long =>
    cases signal with
    | enter isBuy => cases fits
    | exit => simp [Moves, Signal.target, Signal.isBuy, Supertrend.Phase.units, Supertrend.Phase.exitSide]
  | short =>
    cases signal with
    | enter isBuy => cases fits
    | exit => simp [Moves, Signal.target, Signal.isBuy, Supertrend.Phase.units, Supertrend.Phase.exitSide]

theorem bySignal_moves {signal : Phase → List Candle → Option Signal} (orderly : Orderly signal) {held target : Phase}
    {reading : Reading} {isBuy : Bool} (decided : bySignal signal held reading = some (target, isBuy)) :
    Moves held target isBuy := by
  simp only [bySignal, Option.bind_eq_bind, Option.bind_eq_some_iff, Option.pure_def, Option.some.injEq,
    Prod.mk.injEq] at decided
  obtain ⟨candles, _, given, told, rfl, rfl⟩ := decided
  exact (orderly held candles given told).moves

/-- What is had changes with each order. -/
def Toggles (next : Bool → Option Bool) : Prop := ∀ has position, next has = some position → position = !has

theorem Advice.next_toggles (advice : Advice) : Toggles fun has => advice.next has := by
  intro has position told
  cases advice <;> cases has <;> cases told <;> rfl

theorem toggles_bind {Value : Type} (value : Option Value) {next : Bool → Value → Option Bool}
    (toggles : ∀ value, Toggles fun has => next has value) : Toggles fun has => value.bind (next has) := by
  intro has position told
  obtain ⟨value, _, told⟩ := Option.bind_eq_some_iff.mp told
  exact toggles value has position told

theorem BollingerV2Config.toggles (config : BollingerV2Config) (candles : List Candle) :
    Toggles fun has => config.next has candles := by
  intro has position told
  simp only [BollingerV2Config.next, Option.bind_eq_bind, Option.bind_eq_some_iff] at told
  obtain ⟨_, _, _, _, advice, _, told⟩ := told
  exact advice.next_toggles has position told

theorem MacdBbConfig.toggles (config : MacdBbConfig) (candles : List Candle) :
    Toggles fun has => config.next has candles :=
  toggles_bind _ Advice.next_toggles

theorem DmanV3Config.toggles (config : DmanV3Config) (candles : List Candle) :
    Toggles fun has => config.next has candles :=
  toggles_bind _ Advice.next_toggles

theorem IrrConfig.toggles (config : IrrConfig) (predictedReturn : Option ℚ) :
    Toggles fun has => config.next has predictedReturn := by
  intro has position told
  obtain ⟨signal, _, told⟩ := Option.bind_eq_some_iff.mp told
  cases has <;> simp at told <;> simp [told.2]

theorem XfundingLiteConfig.toggles (config : XfundingLiteConfig) (fundingRate : Except PortError ℚ) :
    Toggles fun short => config.next short fundingRate := by
  intro short position told
  obtain ⟨rate, _, told⟩ := Option.bind_eq_some_iff.mp told
  cases short <;> simp at told <;> simp [told.2]

/-- The phases that a trader can be in. -/
def Trader.Takes : Trader → Phase → Prop
  | .bollingerV2 _, held | .macdBb _, held | .dmanV3 _, held | .irr _, held => held ≠ .short
  | .xfundingLite _, held => held ≠ .long
  | _, _ => True

theorem byPosition_moves {next : Bool → Option Bool} (toggles : Toggles next) {held target : Phase} {isBuy : Bool}
    (takes : held ≠ .short) (decided : byPosition next held = some (target, isBuy)) :
    Moves held target isBuy ∧ target ≠ .short := by
  obtain ⟨position, told, same⟩ := Option.map_eq_some_iff.mp decided
  have turned := toggles _ _ told
  obtain ⟨rfl, rfl⟩ := Prod.mk.inj same
  cases held with
  | flat =>
    obtain rfl : position = true := turned
    simp [Moves, Supertrend.Phase.units]
  | long =>
    obtain rfl : position = false := turned
    simp [Moves, Supertrend.Phase.units]
  | short => exact absurd rfl takes

theorem Trader.decide_moves {trader : Trader} {held target : Phase} {reading : Reading} {isBuy : Bool}
    (takes : trader.Takes held) (decided : trader.decide held reading = some (target, isBuy)) :
    Moves held target isBuy ∧ trader.Takes target := by
  cases trader with
  | adxTrend config => exact ⟨bySignal_moves config.orderly decided, trivial⟩
  | bbKeltnerSqueeze config => exact ⟨bySignal_moves config.orderly decided, trivial⟩
  | cvdDivergence config => exact ⟨bySignal_moves config.orderly decided, trivial⟩
  | dualThrust config => exact ⟨bySignal_moves config.orderly decided, trivial⟩
  | momentumFactor config => exact ⟨bySignal_moves config.orderly decided, trivial⟩
  | meanReversion config => exact ⟨bySignal_moves config.orderly decided, trivial⟩
  | ichimoku config => exact ⟨bySignal_moves config.orderly decided, trivial⟩
  | bollingerV2 config => exact byPosition_moves (toggles_bind _ config.toggles) takes decided
  | macdBb config => exact byPosition_moves (toggles_bind _ config.toggles) takes decided
  | dmanV3 config => exact byPosition_moves (toggles_bind _ config.toggles) takes decided
  | irr config => exact byPosition_moves (config.toggles reading.predictedReturn) takes decided
  | xfundingLite config =>
    obtain ⟨short, told, same⟩ := Option.map_eq_some_iff.mp decided
    have turned := config.toggles reading.fundingRate _ _ told
    obtain ⟨rfl, rfl⟩ := Prod.mk.inj same
    cases held with
    | flat =>
      obtain rfl : short = true := turned
      simp [Moves, Supertrend.Phase.units, Trader.Takes]
    | short =>
      obtain rfl : short = false := turned
      simp [Moves, Supertrend.Phase.units, Trader.Takes]
    | long => exact absurd rfl takes

/-- The position is what the phase says, and it is open just if the number of orders is odd. -/
structure Trader.Agrees (trader : Trader) (held : Phase) (submissions : List Submission) : Prop where
  takes : trader.Takes held
  position : position submissions = held.units * trader.qty
  parity : held = .flat ↔ (accepted submissions).length % 2 = 0

theorem Trader.Agrees.tick {trader : Trader} {held : Phase} {submissions : List Submission}
    (agrees : trader.Agrees held submissions) (reading : Reading) :
    trader.Agrees (trader.tick held reading).1 (submissions ++ (trader.tick held reading).2) := by
  rw [Trader.tick]
  cases decided : trader.decide held reading with
  | none => simpa using agrees
  | some decision =>
    obtain ⟨target, isBuy⟩ := decision
    obtain ⟨moves, takes⟩ := Trader.decide_moves agrees.takes decided
    cases answer : reading.accepted with
    | false =>
      refine ⟨agrees.takes, ?_, ?_⟩
      · rw [position_append, agrees.position]
        simp [Supertrend.position, accepted]
      · show held = .flat ↔ _
        rw [agrees.parity]
        simp [accepted]
    | true =>
      have more : (accepted (submissions ++ [⟨marketOrder trader.common.exchangeId trader.common.symbol isBuy
          trader.qty, true⟩])).length = (accepted submissions).length + 1 := by
        simp [accepted]
      refine ⟨takes, ?_, ?_⟩
      · rw [position_append, agrees.position]
        have order : Supertrend.position [⟨marketOrder trader.common.exchangeId trader.common.symbol isBuy trader.qty,
            true⟩] = (if isBuy then 1 else -1) * trader.qty := by
          cases isBuy <;> simp [Supertrend.position, accepted, signed, marketOrder, orderRequest]
        have next : target.units = held.units + (if isBuy then 1 else -1 : ℚ) := by
          rw [← moves.1, add_sub_cancel]
        simp only [if_true]
        rw [order, next, add_mul]
      · show target = .flat ↔ (accepted (submissions ++ [_])).length % 2 = 0
        have before : (accepted submissions).length % 2 = 0 ↔ ¬target = .flat := agrees.parity.symm.trans moves.2
        rw [more]
        by_cases flat : target = .flat
        · simp only [flat, not_true_eq_false, iff_false] at before
          simp only [flat, true_iff]
          omega
        · simp only [flat, not_false_eq_true, iff_true] at before
          simp only [flat, false_iff]
          omega

theorem Trader.Agrees.start (trader : Trader) : trader.Agrees .flat [] where
  takes := by cases trader <;> simp [Trader.Takes]
  position := by simp [Supertrend.position, accepted, Supertrend.Phase.units]
  parity := by simp [accepted]

theorem Trader.run_agrees (trader : Trader) (readings : List Reading) :
    trader.Agrees (trader.run readings).1 (trader.run readings).2 := by
  have kept : ∀ held submissions reading, trader.Agrees held submissions →
      trader.Agrees (trader.tick held reading).1 (submissions ++ (trader.tick held reading).2) :=
    fun _ _ reading agrees => agrees.tick reading
  simpa only [List.nil_append, Trader.run] using ticks_invariant kept (Trader.Agrees.start trader) readings

theorem abs_units_le (held : Phase) : |held.units| ≤ 1 := by
  cases held <;> simp [Supertrend.Phase.units]

/-- Whatever a trader reads and whatever the venue refuses, it holds one unit of the side that it says it holds,
or nothing, and its accepted orders open and close in turn. -/
theorem Trader.position_is_phase (trader : Trader) (readings : List Reading) :
    position (trader.run readings).2 = (trader.run readings).1.units * trader.qty ∧
      |position (trader.run readings).2| ≤ |trader.qty| ∧
      ((trader.run readings).1 = .flat ↔ Even (accepted (trader.run readings).2).length) := by
  have agrees := trader.run_agrees readings
  refine ⟨agrees.position, ?_, agrees.parity.trans Nat.even_iff.symm⟩
  rw [agrees.position, abs_mul]
  exact mul_le_of_le_one_left (abs_nonneg trader.qty) (abs_units_le _)

end LongTrader.Strategy.Traders
