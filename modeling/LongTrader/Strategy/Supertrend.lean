import LongTrader.Indicators.Supertrend
import LongTrader.Strategy.Conservation
import Mathlib.Algebra.Order.Ring.Abs

/-! The supertrend strategy: direction flips of the Supertrend line and of two double averages,
traded with market orders. The phase is written after the venue has accepted, so that it says at
every poll what the venue holds. -/

namespace LongTrader.Strategy.Supertrend

open Indicators (Arithmetic Dema Direction)

inductive Phase where
  | flat
  | long
  | short
  deriving DecidableEq, Repr

/-- What a poll decided to do about the position. A reversal is two orders in the same direction. -/
inductive Signal where
  | enter (isBuy : Bool)
  | exit
  | reverse (isBuy : Bool)
  deriving DecidableEq, Repr

/-- The side that closes a phase: selling a long, buying a short. -/
def Phase.exitSide (phase : Phase) : Bool := phase = .short

/-- The phase that a signal is aiming at. -/
def Signal.target : Signal → Phase
  | .enter true | .reverse true => .long
  | .enter false | .reverse false => .short
  | .exit => .flat

structure SupertrendConfig (P : Type) where
  exchangeId : ExchangeId
  symbol : String
  atrWindow : Nat
  atrMultiplier : P
  fastDemaWindow : Nat
  slowDemaWindow : Nat
  qty : ℚ

/-- A candle as far as the strategy reads it, each price decoded if there is one. -/
structure Candle (P : Type) where
  high : Option (Except DecimalConvertError P)
  low : Option (Except DecimalConvertError P)
  close : Option (Except DecimalConvertError P)

/-- What a tick reads: the candles, and what the venue says to its orders, if it refuses them. -/
structure Reading (P : Type) where
  candles : Except PortError (List (Candle P))
  firstAnswer : Option PortError
  secondAnswer : Option PortError

/-- What a tick leaves and submits, and what it answers; `none` is a panic of the indicators. -/
structure Ticked where
  phase : Phase
  submissions : List Submission
  answer : Option (Except PortError Unit)

/-- The indicators of one poll. -/
structure Gauges (P : Type) where
  st : Indicators.Supertrend P
  fast : Dema P
  slow : Dema P

section

variable {P : Type} (arith : Arithmetic P)

def Gauges.new (config : SupertrendConfig P) : Option (Gauges P) := do
  let fast ← Dema.new arith config.fastDemaWindow
  let slow ← Dema.new arith config.slowDemaWindow
  return ⟨.new arith config.atrWindow config.atrMultiplier, fast, slow⟩

/-- A candle that is not complete is skipped. -/
def Gauges.push (gauges : Gauges P) (candle : Candle P) : Option (Gauges P) :=
  match candle.high, candle.low, candle.close with
  | some (.ok high), some (.ok low), some (.ok close) => do
    let st ← gauges.st.push arith high low close
    let fast ← gauges.fast.push arith close
    let slow ← gauges.slow.push arith close
    return ⟨st, fast, slow⟩
  | _, _, _ => some gauges

/-- Whether the indicators agree on long and on short, once they are warm. -/
def Gauges.wants (gauges : Gauges P) : Option (Option (Bool × Bool)) := do
  let fast ← gauges.fast.value arith
  let slow ← gauges.slow.value arith
  match fast, slow with
  | some f, some s =>
    let demaDir : Direction := if arith.lt s f then .up else if arith.lt f s then .down else .flat
    let stDir := gauges.st.direction
    return some (stDir = .up ∧ demaDir = .up, stDir = .down ∧ demaDir = .down)
  | _, _ => return none

/-- What the candles of a poll say. -/
def evaluate (config : SupertrendConfig P) (candles : List (Candle P)) : Option (Option (Bool × Bool)) := do
  let gauges ← Gauges.new arith config
  let gauges ← candles.foldlM (Gauges.push arith) gauges
  gauges.wants arith

end

def signalOf (held : Phase) (wantLong wantShort : Bool) : Option Signal :=
  match held, wantLong, wantShort with
  | .flat, true, _ => some (.enter true)
  | .flat, _, true => some (.enter false)
  | .long, false, true => some (.reverse false)
  | .short, true, false => some (.reverse true)
  | .long, false, _ => some .exit
  | .short, _, false => some .exit
  | _, _, _ => none

/-- The side of the legs of a signal, and whether there are two. -/
def Signal.legs (held : Phase) : Signal → Bool × Bool
  | .enter isBuy => (isBuy, false)
  | .exit => (held.exitSide, false)
  | .reverse isBuy => (isBuy, true)

section

variable {P : Type} (arith : Arithmetic P) (config : SupertrendConfig P)

/-- The orders of a signal. Between the legs of a reversal the phase is flat. -/
def trade (held : Phase) (signal : Signal) (firstAnswer secondAnswer : Option PortError) : Ticked :=
  let (isBuy, reverses) := signal.legs held
  let leg := marketOrder config.exchangeId config.symbol isBuy config.qty
  match firstAnswer with
  | some error => ⟨held, [⟨leg, false⟩], some (.error error)⟩
  | none =>
    if reverses then
      match secondAnswer with
      | some error => ⟨.flat, [⟨leg, true⟩, ⟨leg, false⟩], some (.error error)⟩
      | none => ⟨signal.target, [⟨leg, true⟩, ⟨leg, true⟩], some (.ok ())⟩
    else ⟨signal.target, [⟨leg, true⟩], some (.ok ())⟩

/-- `Supertrend::tick`. -/
def tick (held : Phase) (reading : Reading P) : Ticked :=
  match reading.candles with
  | .error error => ⟨held, [], some (.error error)⟩
  | .ok candles =>
    match evaluate arith config candles with
    | none => ⟨held, [], none⟩
    | some none => ⟨held, [], some (.ok ())⟩
    | some (some (wantLong, wantShort)) =>
      match signalOf held wantLong wantShort with
      | none => ⟨held, [], some (.ok ())⟩
      | some signal => trade config held signal reading.firstAnswer reading.secondAnswer

/-- The ticks of a new strategy. -/
def run (readings : List (Reading P)) : Phase × List Submission :=
  ticks (fun held reading =>
    let ticked := tick arith config held reading
    (ticked.phase, ticked.submissions)) .flat readings

end

/-- Whether a candle has all its prices. -/
def Candle.complete {P : Type} (candle : Candle P) : Bool :=
  match candle.high, candle.low, candle.close with
  | some (.ok _), some (.ok _), some (.ok _) => true
  | _, _, _ => false

section Warmup

variable {P : Type} {arith : Arithmetic P} {config : SupertrendConfig P}

/-- The indicators have seen the same complete candles. -/
structure Gauges.Seen (config : SupertrendConfig P) (count : Nat) (gauges : Gauges P) : Prop where
  st : gauges.st.Seen config.atrWindow count
  fast : gauges.fast.Seen config.fastDemaWindow count
  slow : gauges.slow.Seen config.slowDemaWindow count

/-- Enough complete candles for every indicator of the strategy. -/
structure Warm (config : SupertrendConfig P) (count : Nat) : Prop where
  st : max config.atrWindow 1 ≤ count
  fast : 0 < config.fastDemaWindow ∧ 2 * config.fastDemaWindow ≤ count + 1
  slow : 0 < config.slowDemaWindow ∧ 2 * config.slowDemaWindow ≤ count + 1

theorem Gauges.Seen.push {count : Nat} {gauges after : Gauges P} {candle : Candle P}
    (seen : gauges.Seen config count) (pushed : gauges.push arith candle = some after) :
    after.Seen config (count + if candle.complete then 1 else 0) := by
  unfold Gauges.push at pushed
  unfold Candle.complete
  split at pushed
  · simp only [Option.bind_eq_bind, Option.bind_eq_some_iff] at pushed
    obtain ⟨st, drawn, fast, pushedFast, slow, pushedSlow, ⟨⟩⟩ := pushed
    exact ⟨seen.st.push drawn, seen.fast.push pushedFast, seen.slow.push pushedSlow⟩
  · obtain rfl := Option.some.inj pushed
    simpa using seen

theorem Gauges.Seen.pushAll {count : Nat} {gauges after : Gauges P} {candles : List (Candle P)}
    (seen : gauges.Seen config count) (pushed : candles.foldlM (Gauges.push arith) gauges = some after) :
    after.Seen config (count + candles.countP Candle.complete) := by
  induction candles generalizing count gauges with
  | nil =>
    obtain rfl := Option.some.inj pushed
    exact seen
  | cons candle rest ih =>
    simp only [List.foldlM_cons, Option.bind_eq_bind, Option.bind_eq_some_iff] at pushed
    obtain ⟨middle, first, others⟩ := pushed
    have later := ih (seen.push first) others
    rwa [List.countP_cons, Nat.add_comm (rest.countP _), ← Nat.add_assoc]

/-- The strategy wants nothing until its indicators are warm. -/
theorem evaluate_warm {candles : List (Candle P)} {wantLong wantShort : Bool}
    (wants : evaluate arith config candles = some (some (wantLong, wantShort)))
    (wanted : wantLong = true ∨ wantShort = true) : Warm config (candles.countP Candle.complete) := by
  simp only [evaluate, Gauges.new, Option.bind_eq_bind, Option.bind_eq_some_iff] at wants
  obtain ⟨fresh, ⟨fast, newFast, slow, newSlow, ⟨⟩⟩, gauges, pushed, wants⟩ := wants
  have seen : gauges.Seen config (candles.countP Candle.complete) := by
    have start : Gauges.Seen config 0 ⟨.new arith config.atrWindow config.atrMultiplier, fast, slow⟩ :=
      ⟨.new _ _, .new newFast, .new newSlow⟩
    simpa using start.pushAll pushed
  simp only [Gauges.wants, Option.bind_eq_bind, Option.bind_eq_some_iff] at wants
  obtain ⟨fast, valuedFast, slow, valuedSlow, wants⟩ := wants
  split at wants
  · have directed : gauges.st.direction ≠ .flat := by
      intro flat
      obtain ⟨⟩ := wants
      simp [flat] at wanted
    exact ⟨seen.st.warm directed, seen.fast.warm valuedFast, seen.slow.warm valuedSlow⟩
  · cases wants

/-- A position is entered on warm indicators only. -/
theorem tick_warm {reading : Reading P} (submits : (tick arith config .flat reading).submissions ≠ []) :
    ∃ candles, reading.candles = .ok candles ∧ Warm config (candles.countP Candle.complete) := by
  unfold tick at submits
  cases read : reading.candles with
  | error error => simp [read] at submits
  | ok candles =>
    refine ⟨candles, rfl, ?_⟩
    simp only [read] at submits
    cases evaluated : evaluate arith config candles with
    | none => simp [evaluated] at submits
    | some wants =>
      cases wants with
      | none => simp [evaluated] at submits
      | some wants =>
        obtain ⟨wantLong, wantShort⟩ := wants
        refine evaluate_warm evaluated ?_
        by_contra neither
        obtain ⟨rfl, rfl⟩ : wantLong = false ∧ wantShort = false := by simpa using neither
        simp [evaluated, signalOf] at submits

end Warmup

/-- What an order that was accepted adds to the position. -/
def signed (submission : Submission) : ℚ :=
  if submission.request.side = .buy then submission.request.amount else -submission.request.amount

/-- The net quantity of the accepted orders. -/
def position (submissions : List Submission) : ℚ := ((accepted submissions).map signed).sum

/-- The position that a phase stands for, in units of the configured quantity. -/
def Phase.units : Phase → ℚ
  | .flat => 0
  | .long => 1
  | .short => -1

section Position

variable {P : Type} {arith : Arithmetic P} {config : SupertrendConfig P}

theorem position_append (first second : List Submission) :
    position (first ++ second) = position first + position second := by
  simp [position, accepted]

/-- What the legs of a signal add to the position, one after the other. -/
theorem signed_leg (isBuy accepted : Bool) :
    signed ⟨marketOrder config.exchangeId config.symbol isBuy config.qty, accepted⟩ =
      if isBuy then config.qty else -config.qty := by
  cases isBuy with
  | false => rfl
  | true => rfl

/-- A signal that a phase can give aims one leg away from it, or two when it reverses. -/
theorem target_units {held : Phase} {wantLong wantShort : Bool} {signal : Signal}
    (given : signalOf held wantLong wantShort = some signal) :
    (signal.target.units - held.units : ℚ) =
        (if (signal.legs held).1 then 1 else -1) * (if (signal.legs held).2 then 2 else 1) ∧
      ((signal.legs held).2 = true → -held.units = if (signal.legs held).1 then 1 else (-1 : ℚ)) := by
  cases held <;> cases wantLong <;> cases wantShort <;> cases given <;>
    norm_num +decide [Signal.target, Signal.legs, Phase.units, Phase.exitSide]

/-- The accepted legs of a signal move the position by as much as the phase moves. -/
theorem trade_position {held : Phase} {wantLong wantShort : Bool} {signal : Signal}
    (given : signalOf held wantLong wantShort = some signal) (firstAnswer secondAnswer : Option PortError) :
    position (trade config held signal firstAnswer secondAnswer).submissions =
      ((trade config held signal firstAnswer secondAnswer).phase.units - held.units) * config.qty := by
  obtain ⟨moves, reversed⟩ := target_units given
  unfold trade
  generalize signal.legs held = legs at moves reversed ⊢
  obtain ⟨isBuy, reverses⟩ := legs
  simp only at moves reversed ⊢
  cases firstAnswer with
  | some error => simp [position, accepted]
  | none =>
    cases reverses with
    | false =>
      simp only [Bool.false_eq_true, if_false, mul_one] at moves ⊢
      rw [moves]
      cases isBuy with
      | false => simp [position, accepted, signed_leg]
      | true => simp [position, accepted, signed_leg]
    | true =>
      have opposite := reversed rfl
      simp only [if_true] at moves opposite ⊢
      cases secondAnswer with
      | some error =>
        have cleared : Phase.flat.units - held.units = -held.units := zero_sub _
        rw [cleared, opposite]
        cases isBuy with
        | false => simp [position, accepted, signed_leg]
        | true => simp [position, accepted, signed_leg]
      | none =>
        rw [moves]
        cases isBuy with
        | false =>
          simp [position, accepted, signed_leg]
          ring
        | true =>
          simp [position, accepted, signed_leg]
          ring

theorem tick_position (held : Phase) (reading : Reading P) :
    position (tick arith config held reading).submissions =
      ((tick arith config held reading).phase.units - held.units) * config.qty := by
  have still : position [] = (held.units - held.units) * config.qty := by
    simp [position, accepted]
  unfold tick
  cases reading.candles with
  | error error => exact still
  | ok candles =>
    simp only
    cases evaluate arith config candles with
    | none => exact still
    | some wants =>
      cases wants with
      | none => exact still
      | some wants =>
        obtain ⟨wantLong, wantShort⟩ := wants
        simp only
        cases given : signalOf held wantLong wantShort with
        | none => exact still
        | some signal => exact trade_position given _ _

/-- After any ticks the venue holds what the phase says, and never more than one unit. -/
theorem position_matches_phase (config : SupertrendConfig P) (readings : List (Reading P)) :
    position (run arith config readings).2 = (run arith config readings).1.units * config.qty ∧
      |position (run arith config readings).2| ≤ |config.qty| := by
  have matched : position (run arith config readings).2 =
      (run arith config readings).1.units * config.qty := by
    have start : position [] = Phase.flat.units * config.qty := by
      simp [position, accepted, Phase.units]
    refine @ticks_invariant [] Phase (Reading P) _
      (fun phase submissions => position submissions = phase.units * config.qty) ?_ .flat start readings
    intro held submissions reading holds
    rw [position_append, holds, tick_position]
    ring
  refine ⟨matched, ?_⟩
  rw [matched, abs_mul]
  have bounded : |(run arith config readings).1.units| ≤ 1 := by
    cases (run arith config readings).1 with
    | flat => norm_num [Phase.units]
    | long => norm_num [Phase.units]
    | short => norm_num [Phase.units]
  exact mul_le_of_le_one_left (abs_nonneg _) bounded

end Position

end LongTrader.Strategy.Supertrend
