import LongTrader.Indicators.Rounded
import LongTrader.Strategy.Supertrend
import LongTrader.Runs

/-! The crossing of two exponential averages, each cross traded with one market order. The latch is
written after the venue has accepted the order, which is of the same size whatever is held. -/

namespace LongTrader.Strategy.EmaCross

open Indicators (Arithmetic Ema)
open Supertrend (position signed position_append)

structure EmaCrossConfig where
  exchangeId : ExchangeId
  symbol : String
  fastWindow : Nat
  slowWindow : Nat
  qty : ℚ

inductive CrossState where
  | unknown
  | fastAbove
  | fastBelow
  deriving DecidableEq, Repr

/-- The position that the latch stands for, in units of the configured quantity. -/
def CrossState.units : CrossState → ℚ
  | .unknown => 0
  | .fastAbove => 1
  | .fastBelow => -1

/-- What a tick reads: the closes of the candles, each decoded if there is one, and what the venue says
to the order, if it refuses it. -/
structure Reading (P : Type) where
  closes : Except PortError (List (Option (Except DecimalConvertError P)))
  answer : Option PortError

/-- What a tick leaves and submits, and what it answers; `none` is a panic of the averages. -/
structure Ticked where
  crossState : CrossState
  submissions : List Submission
  answer : Option (Except PortError Unit)

section Ticks

variable {P : Type} (arith : Arithmetic P) (config : EmaCrossConfig)

/-- `closes_of`, which skips what is missing or cannot be decoded. -/
def closesOf (closes : List (Option (Except DecimalConvertError P))) : List P :=
  closes.filterMap fun close => match close with
    | some (.ok close) => some close
    | _ => none

/-- On which side of each other the averages of a poll are, once they are both warm and not equal. -/
def crossOf (closes : List P) : Option (Option CrossState) := do
  let fast ← Ema.new arith config.fastWindow
  let slow ← Ema.new arith config.slowWindow
  let (fast, slow) ← closes.foldlM
    (fun (averages : Ema P × Ema P) close => do
      let fast ← averages.1.push arith close
      let slow ← averages.2.push arith close
      return (fast, slow))
    (fast, slow)
  match fast.value, slow.value with
  | some f, some s =>
    return if arith.lt s f then some .fastAbove else if arith.lt f s then some .fastBelow else none
  | _, _ => return none

/-- The order of a fresh cross, and the latch, which it moves when it is accepted. -/
def trade (state new : CrossState) (answer : Option PortError) : Ticked :=
  let crossedUp := state ≠ .fastAbove ∧ new = .fastAbove
  let crossedDown := state ≠ .fastBelow ∧ new = .fastBelow
  if crossedUp ∨ crossedDown then
    let request := marketOrder config.exchangeId config.symbol crossedUp config.qty
    match answer with
    | some error => ⟨state, [⟨request, false⟩], some (.error error)⟩
    | none => ⟨new, [⟨request, true⟩], some (.ok ())⟩
  else ⟨state, [], some (.ok ())⟩

/-- `EmaCross::tick`. -/
def tick (state : CrossState) (reading : Reading P) : Ticked :=
  match reading.closes with
  | .error error => ⟨state, [], some (.error error)⟩
  | .ok closes =>
    match crossOf arith config (closesOf closes) with
    | none => ⟨state, [], none⟩
    | some none => ⟨state, [], some (.ok ())⟩
    | some (some new) => trade config state new reading.answer

/-- The latch, and all that has been submitted. -/
structure World where
  crossState : CrossState
  submissions : List Submission

/-- A new strategy. -/
def World.new : World := ⟨.unknown, []⟩

def World.step (world : World) (reading : Reading P) : World :=
  let ticked := tick arith config world.crossState reading
  ⟨ticked.crossState, world.submissions ++ ticked.submissions⟩

/-- The side that the averages of a reading are on, if it can be told. -/
def Reading.cross (reading : Reading P) : Option CrossState :=
  match reading.closes with
  | .error _ => none
  | .ok closes => (crossOf arith config (closesOf closes)).join

/-- The position is what the latch says. -/
def World.Follows (world : World) : Prop :=
  position world.submissions = world.crossState.units * config.qty

/-- The averages do not go over to the other side, unless the venue refuses the order or there is no
quantity to it. -/
def World.Reverses (world : World) (reading : Reading P) : Prop :=
  ∀ new ∈ reading.cross arith config, world.crossState ≠ .unknown → new ≠ world.crossState →
    config.qty = 0 ∨ reading.answer ≠ none

end Ticks

section Position

variable {P : Type} {arith : Arithmetic P} {config : EmaCrossConfig}

theorem position_order (isBuy accepted : Bool) :
    position [⟨marketOrder config.exchangeId config.symbol isBuy config.qty, accepted⟩] =
      if accepted then if isBuy then config.qty else -config.qty else 0 := by
  cases accepted with
  | false => rfl
  | true => cases isBuy <;> simp [position, Strategy.accepted, signed, marketOrder, orderRequest]

/-- Averages that are told apart are above each other or below. -/
theorem crossOf_cases {closes : List P} {new : CrossState}
    (crosses : crossOf arith config closes = some (some new)) : new = .fastAbove ∨ new = .fastBelow := by
  simp only [crossOf, Option.bind_eq_bind, Option.bind_eq_some_iff] at crosses
  obtain ⟨fast, -, slow, -, ⟨fast, slow⟩, -, told⟩ := crosses
  split at told
  · rename_i f s _ _
    by_cases above : arith.lt s f = true
    · simp [above] at told
      exact .inl told.symm
    · by_cases below : arith.lt f s = true
      · simp [above, below] at told
        exact .inr told.symm
      · simp [above, below] at told
  · cases told

/-- A tick without a cross leaves everything as it is. -/
theorem tick_uncrossed {state : CrossState} {reading : Reading P}
    (uncrossed : reading.cross arith config = none) :
    (tick arith config state reading).crossState = state ∧
      (tick arith config state reading).submissions = [] := by
  unfold tick
  cases read : reading.closes with
  | error error => exact ⟨rfl, rfl⟩
  | ok closes =>
    dsimp only
    rw [Reading.cross, read] at uncrossed
    cases crosses : crossOf arith config (closesOf closes) with
    | none => exact ⟨rfl, rfl⟩
    | some told =>
      cases told with
      | none => exact ⟨rfl, rfl⟩
      | some new => simp [crosses] at uncrossed

theorem tick_crossed {state new : CrossState} {reading : Reading P}
    (crosses : reading.cross arith config = some new) :
    tick arith config state reading = trade config state new reading.answer ∧
      (new = .fastAbove ∨ new = .fastBelow) := by
  cases read : reading.closes with
  | error error => simp [Reading.cross, read] at crosses
  | ok closes =>
    rw [Reading.cross, read] at crosses
    have told : crossOf arith config (closesOf closes) = some (some new) := Option.join_eq_some_iff.mp crosses
    exact ⟨by simp [tick, read, told], crossOf_cases told⟩

/-- One order takes the position from nothing to the side of the cross, and from the other side only
to nothing. -/
theorem trade_position_iff {state new : CrossState} (told : new = .fastAbove ∨ new = .fastBelow)
    (answer : Option PortError) :
    state.units * config.qty + position (trade config state new answer).submissions =
        (trade config state new answer).crossState.units * config.qty ↔
      (state ≠ .unknown → new ≠ state → config.qty = 0 ∨ answer ≠ none) := by
  have nothing : position [] = 0 := rfl
  cases answer with
  | some error =>
    have refused : (trade config state new (some error)).crossState = state ∧
        position (trade config state new (some error)).submissions = 0 := by
      unfold trade
      dsimp only
      split
      · exact ⟨rfl, position_order _ false⟩
      · exact ⟨rfl, nothing⟩
    rw [refused.1, refused.2, add_zero]
    exact iff_of_true rfl fun _ _ => .inr nofun
  | none =>
    rcases told with rfl | rfl
    · cases state with
      | unknown => simp [trade, position_order, CrossState.units]
      | fastAbove => simp [trade, nothing, CrossState.units]
      | fastBelow => simp [trade, position_order, CrossState.units, eq_comm]
    · cases state with
      | unknown => simp [trade, position_order, CrossState.units]
      | fastAbove => simp [trade, position_order, CrossState.units]
      | fastBelow => simp [trade, nothing, CrossState.units]

theorem World.Follows.step_iff {world : World} {reading : Reading P} (follows : world.Follows config) :
    (world.step arith config reading).Follows config ↔ world.Reverses arith config reading := by
  unfold Follows at follows ⊢
  simp only [step, position_append, follows]
  cases crosses : reading.cross arith config with
  | none =>
    obtain ⟨same, nothing⟩ := tick_uncrossed crosses
    rw [same, nothing]
    refine iff_of_true (add_zero _) ?_
    simp [Reverses, crosses]
  | some new =>
    obtain ⟨trades, told⟩ := tick_crossed crosses
    rw [trades, trade_position_iff told]
    simp [Reverses, crosses]

/-- After every tick the position is what the latch says, just if the averages never go over from one
side to the other, unless the venue refuses the order or there is no quantity to it. -/
theorem position_follows_latch_iff (arith : Arithmetic P) (config : EmaCrossConfig)
    (readings : List (Reading P)) :
    Runs.Along (World.step arith config)
        (fun world reading => (world.step arith config reading).Follows config) .new readings ↔
      Runs.Along (World.step arith config) (World.Reverses arith config) .new readings := by
  have start : World.Follows config .new := (zero_mul config.qty).symm
  refine @Runs.along_congr _ _ _ (World.Follows config) _ _ ?_ ?_ _ start readings
  · exact fun world reading follows => follows.step_iff
  · exact fun world reading follows holds => follows.step_iff.mpr holds

end Position

/-- Windows of two and four closes, and half a unit to each order. -/
def short : EmaCrossConfig := ⟨⟨"mock", ""⟩, "BTC/USDT", 2, 4, 1 / 2⟩

/-- A reading of these closes. -/
def closing (closes : List ℚ) : Reading ℚ := ⟨.ok (closes.map fun close => some (.ok close)), none⟩

/-- The averages cross upwards, and then back. -/
def reversed : World :=
  [closing [1, 2, 3, 4], closing [4, 3, 2, 1]].foldl (World.step Arithmetic.rounded short) .new

/-- The order that the cross back submits closes the position, and the latch says that it is short. -/
theorem reversal_leaves_flat :
    reversed.crossState = .fastBelow ∧ position reversed.submissions = 0 ∧ short.qty = 1 / 2 := by
  decide +kernel

end LongTrader.Strategy.EmaCross
