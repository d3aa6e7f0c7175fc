import LongTrader.Indicators.Rounded
import LongTrader.Strategy.OneLadder
import Mathlib.Algebra.Order.Field.Rat
import Mathlib.Data.Nat.Find
import Mathlib.Tactic.FieldSimp
import Mathlib.Tactic.Linarith
import Mathlib.Tactic.Positivity
import Mathlib.Tactic.Ring

/-! The geometry of the ladder: the rungs that the loop of `calculate_levels` leaves, in any decimal
arithmetic and in an exact one. -/

namespace LongTrader.Strategy.SimpleGrid

section Loop

variable {P : Type} [LinearOrder P] [Zero P] [Add P] [Sub P] [Div P] [NatCast P]
variable (config : SimpleGridConfig P) (current : P) (ulids : Nat → String)

/-- The `while` of `calculate_levels` with both of its conditions; `none` is a loop that has not ended
within the fuel. -/
def ladderLoop : Nat → List (GridLevel P) → P → Option (List (GridLevel P))
  | 0, _, _ => none
  | fuel + 1, levels, price =>
    if price ≤ config.upperPrice ∧ levels.length ≤ config.numLevels then
      ladderLoop fuel (levels ++ [⟨price, sideFor price current, coid (ulids levels.length), ""⟩])
        (price + gridStep config)
    else some levels

/-- `grid::calculate_levels` with its loop as it is written. -/
def calculateLevelsLoop (fuel : Nat) : Option (List (GridLevel P)) :=
  if gridStep config ≤ 0 then some [] else ladderLoop config current ulids fuel [] config.lowerPrice

theorem ladderLoop_ends {room fuel : Nat} (enough : room < fuel) (levels : List (GridLevel P)) (price : P)
    (filled : room + levels.length = config.numLevels + 1) :
    ladderLoop config current ulids fuel levels price =
      some (levels ++ levelsFrom config current ulids room levels.length price) := by
  induction room generalizing fuel levels price with
  | zero =>
    obtain ⟨fuel, rfl⟩ := Nat.exists_eq_succ_of_ne_zero (Nat.ne_zero_of_lt enough)
    rw [ladderLoop, if_neg (fun guards => by omega), levelsFrom, List.append_nil]
  | succ room ih =>
    obtain ⟨fuel, rfl⟩ := Nat.exists_eq_succ_of_ne_zero (Nat.ne_zero_of_lt enough)
    rw [ladderLoop, levelsFrom]
    by_cases below : price ≤ config.upperPrice
    · rw [if_pos ⟨below, by omega⟩, if_pos below, ih (by omega) _ _ (by simp; omega)]
      simp
    · rw [if_neg (fun guards => below guards.1), if_neg below, List.append_nil]

/-- The loop ends, whatever its prices do, since it counts the levels. -/
theorem calculateLevelsLoop_ends {fuel : Nat} (enough : config.numLevels + 1 < fuel) :
    calculateLevelsLoop config current ulids fuel = some (calculateLevels config current ulids) := by
  rw [calculateLevelsLoop, calculateLevels]
  split
  · rfl
  · exact ladderLoop_ends config current ulids enough [] config.lowerPrice rfl

theorem levelsFrom_sides (room count : Nat) (price : P) :
    ∀ level ∈ levelsFrom config current ulids room count price,
      level.side = .buy ↔ level.price < current := by
  induction room generalizing count price with
  | zero => simp [levelsFrom]
  | succ room ih =>
    rw [levelsFrom]
    split
    · refine List.forall_mem_cons.mpr ⟨?_, ih (count + 1) _⟩
      simp [sideFor]
    · simp

theorem calculateLevels_sides :
    ∀ level ∈ calculateLevels config current ulids, level.side = .buy ↔ level.price < current := by
  rw [calculateLevels]
  split
  · simp
  · exact levelsFrom_sides config current ulids _ _ _

/-- Rungs are ordered as a price in the band is to the next one. -/
theorem levelsFrom_ordered {before : P → P → Prop} [Trans before before before]
    (next : ∀ price, config.inBand price = true → before price (price + gridStep config))
    (grows : ∀ price, price ≤ price + gridStep config) (room count : Nat) {price : P}
    (above : config.lowerPrice ≤ price) :
    ((levelsFrom config current ulids room count price).map GridLevel.price).IsChain before := by
  induction room generalizing count price with
  | zero => exact List.IsChain.nil
  | succ room ih =>
    rw [levelsFrom]
    split
    · rename_i below
      have rest := ih (count + 1) (above.trans (grows price))
      refine List.IsChain.cons rest fun rung head => ?_
      have inBand := (inBand_iff config price).mpr ⟨above, below⟩
      rcases room with _ | room
      · simp [levelsFrom] at head
      · rw [levelsFrom] at head
        split at head
        · obtain rfl : price + gridStep config = rung := by simpa using head
          exact next price inBand
        · simp at head
    · exact List.IsChain.nil

theorem calculateLevels_ordered {before : P → P → Prop} [Trans before before before]
    (next : ∀ price, 0 < gridStep config → config.inBand price = true →
      before price (price + gridStep config))
    (grows : ∀ price step : P, 0 < step → price ≤ price + step) :
    ((calculateLevels config current ulids).map GridLevel.price).Pairwise before := by
  rw [calculateLevels, ← List.isChain_iff_pairwise]
  split
  · exact List.IsChain.nil
  · rename_i steep
    have positive := not_le.mp steep
    exact levelsFrom_ordered config current ulids (fun price => next price positive)
      (fun price => grows price _ positive) _ _ le_rfl

end Loop

section Exact

variable (config : SimpleGridConfig ℚ) (current : ℚ) (ulids : Nat → String)

theorem gridStep_span (levels : 0 < config.numLevels) :
    config.lowerPrice + config.numLevels * gridStep config = config.upperPrice := by
  have divisor : (0 : ℚ) < config.numLevels := by exact_mod_cast levels
  rw [gridStep, if_pos levels, mul_div_cancel₀ _ divisor.ne']
  ring

/-- The rungs from the `count`-th on, as long as none of them lies above the last. -/
theorem levelsFrom_rungs (levels : 0 < config.numLevels) (steep : 0 < gridStep config) (room count : Nat)
    (filled : room + count = config.numLevels + 1) :
    (levelsFrom config current ulids room count (config.lowerPrice + count * gridStep config)).map
        GridLevel.price =
      (List.range' count room).map fun rung => config.lowerPrice + (rung : Nat) * gridStep config := by
  induction room generalizing count with
  | zero => rfl
  | succ room ih =>
    have reached : (count : ℚ) ≤ config.numLevels := by
      have nat : count ≤ config.numLevels := by omega
      exact_mod_cast nat
    have below : config.lowerPrice + count * gridStep config ≤ config.upperPrice := by
      rw [← gridStep_span config levels]
      gcongr
    have next : config.lowerPrice + count * gridStep config + gridStep config =
        config.lowerPrice + ((count + 1 : Nat) : ℚ) * gridStep config := by
      push_cast
      ring
    rw [levelsFrom, if_pos below, next, List.map_cons, ih (count + 1) (by omega), List.range'_succ,
      List.map_cons]

theorem calculateLevels_rungs (span : config.lowerPrice < config.upperPrice) (levels : 0 < config.numLevels) :
    (calculateLevels config current ulids).map GridLevel.price =
      (List.range (config.numLevels + 1)).map fun rung => config.lowerPrice + (rung : Nat) * gridStep config := by
  have divisor : (0 : ℚ) < config.numLevels := by exact_mod_cast levels
  have steep : 0 < gridStep config := by
    rw [gridStep, if_pos levels]
    exact div_pos (sub_pos.mpr span) divisor
  have rungs := levelsFrom_rungs config current ulids levels steep (config.numLevels + 1) 0 rfl
  rw [Nat.cast_zero, zero_mul, add_zero] at rungs
  rw [calculateLevels, if_neg steep.not_ge, rungs, List.range_eq_range']

theorem calculateLevels_full (span : config.lowerPrice < config.upperPrice) (levels : 0 < config.numLevels) :
    (calculateLevels config current ulids).length = config.numLevels + 1 ∧
      ((calculateLevels config current ulids).map GridLevel.price).getLast? = some config.upperPrice := by
  have rungs := calculateLevels_rungs config current ulids span levels
  constructor
  · simpa using congrArg List.length rungs
  · rw [rungs, List.range_succ, List.map_append, List.map_singleton, List.getLast?_concat,
      gridStep_span config levels]

end Exact

/-- What the ladder is in an arithmetic whose sums may be rounded. -/
structure IsLadder {P : Type} [LinearOrder P] [Zero P] [Add P] [Sub P] [Div P] [NatCast P]
    (config : SimpleGridConfig P) (current : P) (ulids : Nat → String) (levels : List (GridLevel P)) : Prop where
  ends : ∀ fuel, config.numLevels + 1 < fuel → calculateLevelsLoop config current ulids fuel = some levels
  inBand : ∀ level ∈ levels, config.lowerPrice ≤ level.price ∧ level.price ≤ config.upperPrice
  count : levels.length ≤ config.numLevels + 1
  sides : ∀ level ∈ levels, level.side = .buy ↔ level.price < current
  ordered : (levels.map GridLevel.price).Pairwise (· ≤ ·)
  increasing : (∀ price, 0 < gridStep config → config.lowerPrice ≤ price ∧ price ≤ config.upperPrice →
    price < price + gridStep config) → (levels.map GridLevel.price).Pairwise (· < ·)

/-- The ladder of any configuration, in an arithmetic in which adding a positive step does not lower a
price; and what exact arithmetic adds to it. -/
theorem calculateLevels_isLadder :
    (∀ {P : Type} [LinearOrder P] [Zero P] [Add P] [Sub P] [Div P] [NatCast P]
      (config : SimpleGridConfig P) (current : P) (ulids : Nat → String),
      (∀ price step : P, 0 < step → price ≤ price + step) →
        IsLadder config current ulids (calculateLevels config current ulids)) ∧
    ∀ (config : SimpleGridConfig ℚ) (current : ℚ) (ulids : Nat → String),
      ((calculateLevels config current ulids).map GridLevel.price).Pairwise (· < ·) ∧
      (config.lowerPrice < config.upperPrice → 0 < config.numLevels →
        (calculateLevels config current ulids).length = config.numLevels + 1 ∧
        ((calculateLevels config current ulids).map GridLevel.price).getLast? = some config.upperPrice) := by
  constructor
  · intro P _ _ _ _ _ _ config current ulids grows
    exact {
      ends := fun fuel => calculateLevelsLoop_ends config current ulids
      inBand := fun level member => (inBand_iff config level.price).mp
        (calculateLevels_inBand config current ulids grows _ (List.mem_map_of_mem member))
      count := calculateLevels_length config current ulids
      sides := calculateLevels_sides config current ulids
      ordered := calculateLevels_ordered config current ulids
        (fun price steep _ => grows price _ steep) grows
      increasing := fun next => calculateLevels_ordered config current ulids
        (fun price steep inBand => next price steep ((inBand_iff config price).mp inBand)) grows }
  · intro config current ulids
    refine ⟨?_, calculateLevels_full config current ulids⟩
    exact calculateLevels_ordered config current ulids
      (fun price steep _ => lt_add_of_pos_right price steep)
      (fun price step positive => (lt_add_of_pos_right price positive).le)

/-- The five rungs of a band of twenty. -/
theorem calculateLevels_isLadder_five :
    let band : SimpleGridConfig ℚ := ⟨90, 110, 4, none⟩
    IsLadder band 100 (fun _ => "") (calculateLevels band 100 fun _ => "") ∧
      (calculateLevels band 100 fun _ => "").length = 5 := by
  refine ⟨calculateLevels_isLadder.1 _ _ _ fun price step positive => ?_, ?_⟩
  · exact (lt_add_of_pos_right price positive).le
  · exact ((calculateLevels_isLadder.2 _ _ _).2 (by norm_num) (by norm_num)).1

section Rounding

/-- How many decimals of a number a 96-bit coefficient holds. -/
def decimalsHeld (number : ℚ) : Nat := Nat.findGreatest (fun scale => |number| * 10 ^ scale < 2 ^ 96) 28

/-- A number as `rust_decimal` rounds the results of its operators. -/
structure Rounded where
  value : ℚ

def Rounded.of (number : ℚ) : Rounded :=
  ⟨Indicators.nearestEven (number * 10 ^ decimalsHeld number) / 10 ^ decimalsHeld number⟩

instance : LinearOrder Rounded :=
  LinearOrder.lift' Rounded.value fun ⟨_⟩ ⟨_⟩ same => congrArg Rounded.mk same

instance : Zero Rounded := ⟨⟨0⟩⟩
instance : NatCast Rounded := ⟨fun number => ⟨number⟩⟩
instance : Add Rounded := ⟨fun first second => .of (first.value + second.value)⟩
instance : Sub Rounded := ⟨fun first second => .of (first.value - second.value)⟩
instance : Div Rounded := ⟨fun first second => .of (first.value / second.value)⟩

/-- A band without levels, and one whose step is below the last digit of its prices. -/
theorem ladder_empty_or_repeated :
    let empty : SimpleGridConfig ℚ := ⟨90, 110, 0, none⟩
    let huge : SimpleGridConfig Rounded := ⟨⟨5 * 10 ^ 28⟩, ⟨5 * 10 ^ 28 + 1⟩, 4, none⟩
    (empty.lowerPrice < empty.upperPrice ∧
      (calculateLevels empty 100 fun _ => "").length ≠ empty.numLevels + 1) ∧
    ¬ ((calculateLevels huge ⟨5 * 10 ^ 28⟩ fun _ => "").map GridLevel.price).Pairwise (· < ·) := by
  decide +kernel

end Rounding

end LongTrader.Strategy.SimpleGrid
