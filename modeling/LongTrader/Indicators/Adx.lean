import LongTrader.Indicators.Rational
import LongTrader.Smoothing
import Mathlib.Algebra.Order.Group.Abs

/-! The directional indicators against Wilder's: the seed of the one form of the smoothing goes into the
recurrence of the other. -/

namespace LongTrader.Indicators

open Smoothing (mixed sums wilder wilderSum)

/-- Average Directional Index with +DI / -DI. -/
structure Adx where
  period : Nat
  prevHigh : Option ℚ
  prevLow : Option ℚ
  prevClose : Option ℚ
  smoothPlusDm : Option ℚ
  smoothMinusDm : Option ℚ
  smoothTr : Option ℚ
  samples : Nat
  sumPlusDm : ℚ
  sumMinusDm : ℚ
  sumTr : ℚ

def Adx.new (period : Nat) : Adx := ⟨max period 1, none, none, none, none, none, none, 0, 0, 0, 0⟩

/-- The directional movement of the one side, which counts if it is the larger one and positive. -/
def directionalMovement (this other : ℚ) : ℚ := if other < this ∧ 0 < this then this else 0

/-- A bar of the seed, the last of which gives the smoothed values. -/
def Adx.seed (adx : Adx) (plusDm minusDm tr : ℚ) : Adx :=
  let n : ℚ := adx.period
  let summed := { adx with
    sumPlusDm := adx.sumPlusDm + plusDm
    sumMinusDm := adx.sumMinusDm + minusDm
    sumTr := adx.sumTr + tr
    samples := adx.samples + 1 }
  if adx.period ≤ summed.samples then { summed with
    smoothPlusDm := some (summed.sumPlusDm / n)
    smoothMinusDm := some (summed.sumMinusDm / n)
    smoothTr := some (summed.sumTr / n) }
  else summed

/-- The smoothed values with the movements and the range of a bar. -/
def Adx.smooth (adx : Adx) (plusDm minusDm tr : ℚ) : Adx :=
  let n : ℚ := adx.period
  match adx.smoothPlusDm, adx.smoothMinusDm, adx.smoothTr with
  | some sp, some sm, some st => { adx with
      smoothPlusDm := some (sp - sp / n + plusDm)
      smoothMinusDm := some (sm - sm / n + minusDm)
      smoothTr := some (st - st / n + tr) }
  | _, _, _ => adx.seed plusDm minusDm tr

/-- `none` is a panic of the `expect`. -/
def Adx.push (adx : Adx) (bar : Bar) : Option Adx :=
  match adx.prevHigh, adx.prevLow with
  | some ph, some pl => do
    let up := bar.high - ph
    let down := pl - bar.low
    let prevClose ← adx.prevClose
    let smoothed := adx.smooth (directionalMovement up down) (directionalMovement down up)
      (bar.trueRange prevClose)
    return { smoothed with
      prevHigh := some bar.high, prevLow := some bar.low, prevClose := some bar.close }
  | _, _ => return { adx with
      prevHigh := some bar.high, prevLow := some bar.low, prevClose := some bar.close }

/-- The indicator of a smoothed movement. -/
def Adx.indicator (adx : Adx) (smoothDm : Option ℚ) : Option ℚ := do
  let tr ← adx.smoothTr
  if tr = 0 then return 0
  let dm ← smoothDm
  return dm / tr * 100

def Adx.plusDi (adx : Adx) : Option ℚ := adx.indicator adx.smoothPlusDm

def Adx.minusDi (adx : Adx) : Option ℚ := adx.indicator adx.smoothMinusDm

/-- The indicators after the bars. -/
def Adx.after (period : Nat) (bars : List Bar) : Option Adx := bars.foldlM Adx.push (.new period)

/-- The movements and the range of a bar behind another. -/
structure Move where
  plusDm : ℚ
  minusDm : ℚ
  tr : ℚ

def Bar.move (before bar : Bar) : Move where
  plusDm := directionalMovement (bar.high - before.high) (before.low - bar.low)
  minusDm := directionalMovement (before.low - bar.low) (bar.high - before.high)
  tr := bar.trueRange before.close

def movesFrom : Bar → List Bar → List Move
  | _, [] => []
  | before, bar :: rest => before.move bar :: movesFrom bar rest

def moves : List Bar → List Move
  | [] => []
  | first :: rest => movesFrom first rest

/-- Wilder's indicator of a movement: the ratio of its smoothed sum to that of the true range. -/
def wilderDi (period : Nat) (dm : Move → ℚ) (moves : List Move) : ℚ :=
  100 * (wilderSum period (moves.map dm) / wilderSum period (moves.map Move.tr))

section Run

variable {n : Nat}

/-- The indicator holds what the mixed smoothing gives of the moves. -/
structure Adx.Seen (n : Nat) (last : Bar) (moves : List Move) (adx : Adx) : Prop where
  period : adx.period = n
  prevHigh : adx.prevHigh = some last.high
  prevLow : adx.prevLow = some last.low
  prevClose : adx.prevClose = some last.close
  cold : moves.length < n → adx.smoothPlusDm = none ∧ adx.samples = moves.length ∧
    adx.sumPlusDm = (moves.map Move.plusDm).sum ∧ adx.sumMinusDm = (moves.map Move.minusDm).sum ∧
    adx.sumTr = (moves.map Move.tr).sum
  warm : n ≤ moves.length → adx.smoothPlusDm = some (mixed n (moves.map Move.plusDm)) ∧
    adx.smoothMinusDm = some (mixed n (moves.map Move.minusDm)) ∧
    adx.smoothTr = some (mixed n (moves.map Move.tr))

theorem Adx.Seen.first (positive : 0 < n) (bar : Bar) :
    ∃ adx, (Adx.new n).push bar = some adx ∧ adx.Seen n bar [] :=
  ⟨_, rfl, max_eq_left (Nat.succ_le_of_lt positive), rfl, rfl, rfl, fun _ => ⟨rfl, rfl, rfl, rfl, rfl⟩,
    fun full => absurd positive (Nat.not_lt.mpr full)⟩

theorem Adx.smooth_cold {adx : Adx} (cold : adx.smoothPlusDm = none) (plusDm minusDm tr : ℚ) :
    adx.smooth plusDm minusDm tr = adx.seed plusDm minusDm tr := by
  rw [Adx.smooth, cold]

theorem Adx.Seen.smooth {adx : Adx} {last : Bar} {moves : List Move} (seen : adx.Seen n last moves)
    (move : Move) (bar : Bar) :
    Adx.Seen n bar (moves ++ [move]) { adx.smooth move.plusDm move.minusDm move.tr with
      prevHigh := some bar.high, prevLow := some bar.low, prevClose := some bar.close } := by
  rcases lt_or_ge moves.length n with short | full
  · obtain ⟨cold, samples, plus, minus, range⟩ := seen.cold short
    rw [Adx.smooth_cold cold, Adx.seed, seen.period, samples, plus, minus, range]
    by_cases fills : n ≤ moves.length + 1
    · have length : n = moves.length + 1 := by omega
      rw [if_pos fills]
      refine ⟨rfl, rfl, rfl, rfl, fun short => ?_, fun _ => ?_⟩
      · simp [length] at short
      · rw [Smoothing.mixed_of_length (by simp [length]), Smoothing.mixed_of_length (by simp [length]),
          Smoothing.mixed_of_length (by simp [length])]
        simp
    · rw [if_neg fills]
      refine ⟨rfl, rfl, rfl, rfl, fun _ => ?_, fun full => ?_⟩
      · simp [cold]
      · simp only [List.length_append, List.length_singleton] at full
        exact absurd full fills
  · obtain ⟨plus, minus, range⟩ := seen.warm full
    have sizes : ∀ dm : Move → ℚ, n ≤ (moves.map dm).length := fun dm => by simpa using full
    rw [Adx.smooth, plus, minus, range]
    refine ⟨seen.period, rfl, rfl, rfl, fun short => ?_, fun _ => ?_⟩
    · simp only [List.length_append, List.length_singleton] at short
      omega
    · simp only [List.map_append, List.map_singleton, Smoothing.mixed_concat (sizes _), seen.period]
      exact ⟨rfl, rfl, rfl⟩

theorem Adx.Seen.push {adx : Adx} {last : Bar} {moves : List Move} (seen : adx.Seen n last moves)
    (bar : Bar) : ∃ after, adx.push bar = some after ∧ after.Seen n bar (moves ++ [last.move bar]) := by
  refine ⟨_, ?_, seen.smooth (last.move bar) bar⟩
  rw [Adx.push, seen.prevHigh, seen.prevLow, seen.prevClose]
  rfl

theorem Adx.Seen.run {adx : Adx} {last : Bar} {moves : List Move} (seen : adx.Seen n last moves)
    (bars : List Bar) :
    ∃ after, bars.foldlM Adx.push adx = some after ∧
      ∃ final, after.Seen n final (moves ++ movesFrom last bars) := by
  induction bars generalizing adx last moves with
  | nil => exact ⟨adx, rfl, last, by rwa [movesFrom, List.append_nil]⟩
  | cons bar rest ih =>
    obtain ⟨next, pushed, kept⟩ := seen.push bar
    obtain ⟨after, ran, final, held⟩ := ih kept
    refine ⟨after, ?_, final, by rwa [movesFrom, List.append_cons]⟩
    rw [List.foldlM_cons, pushed]
    exact ran

/-- No push panics, and the indicators hold the mixed smoothing of the moves. -/
theorem Adx.after_seen (positive : 0 < n) {bars : List Bar} (some_bar : bars ≠ []) :
    ∃ adx, Adx.after n bars = some adx ∧ ∃ final, adx.Seen n final (moves bars) := by
  rcases bars with _ | ⟨first, rest⟩
  · exact absurd rfl some_bar
  · obtain ⟨next, pushed, kept⟩ := Adx.Seen.first positive first
    obtain ⟨after, ran, final, held⟩ := kept.run rest
    refine ⟨after, ?_, final, held⟩
    rw [Adx.after, List.foldlM_cons, pushed]
    exact ran

end Run

section Moves

theorem directionalMovement_nonneg (this other : ℚ) : 0 ≤ directionalMovement this other := by
  rw [directionalMovement]
  split
  · rename_i counts
    exact counts.2.le
  · exact le_rfl

theorem directionalMovement_le {this bound : ℚ} (below : this ≤ bound) (nonneg : 0 ≤ bound) (other : ℚ) :
    directionalMovement this other ≤ bound := by
  rw [directionalMovement]
  split
  · exact below
  · exact nonneg

theorem Bar.trueRange_nonneg (bar : Bar) (prevClose : ℚ) : 0 ≤ bar.trueRange prevClose :=
  (abs_nonneg _).trans (le_max_right ..)

/-- A movement is within the true range if the bar before closes within its own. -/
theorem Bar.move_le {before : Bar} (wellFormed : before.WellFormed) (bar : Bar) :
    (before.move bar).plusDm ≤ (before.move bar).tr ∧ (before.move bar).minusDm ≤ (before.move bar).tr := by
  have above : |bar.high - before.close| ≤ bar.trueRange before.close :=
    (le_max_right ..).trans (le_max_left ..)
  have below : |bar.low - before.close| ≤ bar.trueRange before.close := le_max_right ..
  have up := (le_abs_self (bar.high - before.close)).trans above
  have down := (neg_le_abs (bar.low - before.close)).trans below
  have nonneg := bar.trueRange_nonneg before.close
  have high := wellFormed.le_high
  have low := wellFormed.low_le
  refine ⟨directionalMovement_le ?_ nonneg _, directionalMovement_le ?_ nonneg _⟩
  · exact (sub_le_sub_left high bar.high).trans up
  · exact (sub_le_sub_right low bar.low).trans (by rwa [neg_sub] at down)

/-- Each move is of a bar behind one of the bars. -/
theorem mem_movesFrom {before : Bar} {bars : List Bar} {move : Move} (member : move ∈ movesFrom before bars) :
    ∃ earlier ∈ before :: bars, ∃ bar, move = earlier.move bar := by
  induction bars generalizing before with
  | nil => simp [movesFrom] at member
  | cons bar rest ih =>
    rcases List.mem_cons.mp member with rfl | later
    · exact ⟨before, List.mem_cons_self .., bar, rfl⟩
    · obtain ⟨earlier, among, found⟩ := ih later
      exact ⟨earlier, List.mem_cons_of_mem _ among, found⟩

theorem mem_moves {bars : List Bar} {move : Move} (member : move ∈ moves bars) :
    ∃ earlier ∈ bars, ∃ bar, move = earlier.move bar := by
  rcases bars with _ | ⟨first, rest⟩
  · simp [moves] at member
  · exact mem_movesFrom member

theorem movesFrom_length (before : Bar) (bars : List Bar) : (movesFrom before bars).length = bars.length := by
  induction bars generalizing before with
  | nil => rfl
  | cons bar rest ih => rw [movesFrom, List.length_cons, ih, List.length_cons]

theorem moves_length (bars : List Bar) : (moves bars).length = bars.length - 1 := by
  rcases bars with _ | ⟨first, rest⟩
  · rfl
  · rw [moves, movesFrom_length, List.length_cons, Nat.add_sub_cancel]

/-- What no move has below zero is not below zero along the bars. -/
theorem moves_nonneg (amount : Move → ℚ) (each : ∀ before bar : Bar, 0 ≤ amount (before.move bar))
    (bars : List Bar) : ∀ value ∈ (moves bars).map amount, 0 ≤ value := by
  intro value member
  obtain ⟨move, among, rfl⟩ := List.mem_map.mp member
  obtain ⟨before, _, bar, rfl⟩ := mem_moves among
  exact each before bar

variable (bars : List Bar)

theorem tr_nonneg : ∀ range ∈ (moves bars).map Move.tr, 0 ≤ range :=
  moves_nonneg Move.tr (fun before bar => bar.trueRange_nonneg before.close) bars

theorem plusDm_nonneg : ∀ dm ∈ (moves bars).map Move.plusDm, 0 ≤ dm :=
  moves_nonneg Move.plusDm (fun _ _ => directionalMovement_nonneg ..) bars

theorem minusDm_nonneg : ∀ dm ∈ (moves bars).map Move.minusDm, 0 ≤ dm :=
  moves_nonneg Move.minusDm (fun _ _ => directionalMovement_nonneg ..) bars

end Moves

section Wilder

/-- The period is one, or the movements of the seed are to its true ranges as those of the later bars
are, each worth what the smoothing leaves of it. -/
def SeedInRatio (n : Nat) (dm : Move → ℚ) (moves : List Move) : Prop :=
  n = 1 ∨ ((moves.map dm).take n).sum * sums n 0 ((moves.map Move.tr).drop n) =
    sums n 0 ((moves.map dm).drop n) * ((moves.map Move.tr).take n).sum

/-- Whether the smoothed movements are within the smoothed ranges. -/
def Contained (n : Nat) (dm : Move → ℚ) (moves : List Move) : Prop :=
  wilderSum n (moves.map Move.tr) = 0 ∨ wilderSum n (moves.map dm) ≤ wilderSum n (moves.map Move.tr)

variable {n : Nat} {dm : Move → ℚ} {bars : List Bar}

theorem Adx.indicator_eq {adx : Adx} {tr dm : ℚ} (range : adx.smoothTr = some tr) :
    adx.indicator (some dm) = some (dm / tr * 100) := by
  rw [Adx.indicator, range]
  by_cases empty : tr = 0
  · simp [empty]
  · simp [empty]

theorem Adx.Seen.indicators {adx : Adx} {last : Bar} {moves : List Move} (seen : adx.Seen n last moves)
    (full : n ≤ moves.length) :
    adx.plusDi = some (mixed n (moves.map Move.plusDm) / mixed n (moves.map Move.tr) * 100) ∧
      adx.minusDi = some (mixed n (moves.map Move.minusDm) / mixed n (moves.map Move.tr) * 100) := by
  obtain ⟨plus, minus, range⟩ := seen.warm full
  rw [Adx.plusDi, Adx.minusDi, plus, minus, Adx.indicator_eq range, Adx.indicator_eq range]
  exact ⟨rfl, rfl⟩

/-- An indicator is Wilder's exactly where the seed is in ratio. -/
theorem indicator_eq_wilderDi_iff (positive : 0 < n) (dm : Move → ℚ) (bars : List Bar) :
    mixed n ((moves bars).map dm) / mixed n ((moves bars).map Move.tr) * 100 = wilderDi n dm (moves bars) ↔
      SeedInRatio n dm (moves bars) := by
  rw [wilderDi, mul_comm, mul_right_inj' (by norm_num)]
  exact Smoothing.mixed_div_eq_iff positive (by simp) (tr_nonneg bars)

theorem wilderDi_range_iff (nonneg : ∀ value ∈ (moves bars).map dm, 0 ≤ value) :
    0 ≤ wilderDi n dm (moves bars) ∧ wilderDi n dm (moves bars) ≤ 100 ↔ Contained n dm (moves bars) := by
  have movements := Smoothing.wilderSum_nonneg (n := n) nonneg
  have ranges := Smoothing.wilderSum_nonneg (n := n) (tr_nonneg bars)
  have ratio : 0 ≤ wilderDi n dm (moves bars) := mul_nonneg (by norm_num) (div_nonneg movements ranges)
  rw [and_iff_right ratio, wilderDi, Contained, mul_le_iff_le_one_right (by norm_num)]
  rcases ranges.eq_or_lt with empty | some_range
  · rw [← empty, div_zero]
    exact iff_of_true zero_le_one (.inl rfl)
  · rw [div_le_one some_range, or_iff_right some_range.ne']

/-- Wilder's indicator is the same with averages for the sums. -/
theorem wilderDi_eq_averages (positive : 0 < n) (dm : Move → ℚ) (moves : List Move) :
    wilderDi n dm moves = 100 * (wilder n (moves.map dm) / wilder n (moves.map Move.tr)) := by
  rw [wilderDi, Smoothing.wilderSum_div positive]

theorem contained_of_le {moves : List Move} (each : ∀ move ∈ moves, dm move ≤ move.tr) :
    Contained n dm moves := by
  refine .inr (Smoothing.wilderSum_le ?_)
  rwa [List.forall₂_map_left_iff, List.forall₂_map_right_iff, List.forall₂_same]

/-- Bars that close within their range have their movements within the true range. -/
theorem contained_of_wellFormed (wellFormed : ∀ bar ∈ bars, bar.WellFormed) :
    Contained n Move.plusDm (moves bars) ∧ Contained n Move.minusDm (moves bars) := by
  have each : ∀ move ∈ moves bars, move.plusDm ≤ move.tr ∧ move.minusDm ≤ move.tr := by
    intro move member
    obtain ⟨before, among, bar, rfl⟩ := mem_moves member
    exact Bar.move_le (wellFormed before among) bar
  exact ⟨contained_of_le fun move member => (each move member).1,
    contained_of_le fun move member => (each move member).2⟩

/-- The indicators are Wilder's, and between 0 and 100. -/
structure Adx.IsWilder (n : Nat) (moves : List Move) (adx : Adx) : Prop where
  plus : adx.plusDi = some (wilderDi n Move.plusDm moves)
  minus : adx.minusDi = some (wilderDi n Move.minusDm moves)
  range : ∀ di, adx.plusDi = some di ∨ adx.minusDi = some di → 0 ≤ di ∧ di ≤ 100

end Wilder

/-- The directional indicators are Wilder's exactly where both seeds are in ratio, and within their range
where the movements are: always, if the bars close within theirs. -/
theorem adx_wilder_iff {n : Nat} (positive : 0 < n) {bars : List Bar} (enough : n + 1 ≤ bars.length) :
    ∃ adx, Adx.after n bars = some adx ∧
      (adx.IsWilder n (moves bars) ↔
        (SeedInRatio n Move.plusDm (moves bars) ∧ SeedInRatio n Move.minusDm (moves bars)) ∧
          Contained n Move.plusDm (moves bars) ∧ Contained n Move.minusDm (moves bars)) ∧
      ((∀ bar ∈ bars, bar.WellFormed) →
        Contained n Move.plusDm (moves bars) ∧ Contained n Move.minusDm (moves bars)) := by
  have some_bar : bars ≠ [] := by
    rintro rfl
    simp at enough
  obtain ⟨adx, ran, final, seen⟩ := Adx.after_seen positive some_bar
  have full : n ≤ (moves bars).length := by
    rw [moves_length]
    omega
  obtain ⟨plusDi, minusDi⟩ := seen.indicators full
  have plusRange := wilderDi_range_iff (n := n) (plusDm_nonneg bars)
  have minusRange := wilderDi_range_iff (n := n) (minusDm_nonneg bars)
  refine ⟨adx, ran, ⟨fun meets => ?_, fun condition => ?_⟩, contained_of_wellFormed⟩
  · obtain ⟨plusWilder, minusWilder, between⟩ := meets
    have within := between _ (.inl plusWilder)
    have within' := between _ (.inr minusWilder)
    rw [plusDi, Option.some_inj, indicator_eq_wilderDi_iff positive] at plusWilder
    rw [minusDi, Option.some_inj, indicator_eq_wilderDi_iff positive] at minusWilder
    exact ⟨⟨plusWilder, minusWilder⟩, plusRange.mp within, minusRange.mp within'⟩
  · obtain ⟨⟨plusSeed, minusSeed⟩, plusInside, minusInside⟩ := condition
    rw [← indicator_eq_wilderDi_iff positive] at plusSeed minusSeed
    rw [plusSeed] at plusDi
    rw [minusSeed] at minusDi
    refine ⟨plusDi, minusDi, fun di either => ?_⟩
    rcases either with found | found
    · obtain rfl := Option.some.inj (plusDi.symm.trans found)
      exact plusRange.mpr plusInside
    · obtain rfl := Option.some.inj (minusDi.symm.trans found)
      exact minusRange.mpr minusInside

/-- Two rises. -/
def rising : List Bar := [⟨10, 8, 9⟩, ⟨12, 9, 11⟩, ⟨13, 11, 12⟩]

theorem adx_wilder_iff_rising :
    ∃ adx, Adx.after 2 rising = some adx ∧
      (adx.IsWilder 2 (moves rising) ↔
        (SeedInRatio 2 Move.plusDm (moves rising) ∧ SeedInRatio 2 Move.minusDm (moves rising)) ∧
          Contained 2 Move.plusDm (moves rising) ∧ Contained 2 Move.minusDm (moves rising)) ∧
      ((∀ bar ∈ rising, bar.WellFormed) →
        Contained 2 Move.plusDm (moves rising) ∧ Contained 2 Move.minusDm (moves rising)) :=
  adx_wilder_iff (by decide) (by decide)

/-- The first value of a period of two is Wilder's, the second one, with a bar inside, is not. -/
theorem adx_drifts :
    ((Adx.after 2 rising).bind Adx.plusDi = some 60 ∧ wilderDi 2 Move.plusDm (moves rising) = 60) ∧
      (Adx.after 2 (rising ++ [⟨13, 12, 12⟩])).bind Adx.plusDi = some (100 / 3) ∧
      wilderDi 2 Move.plusDm (moves (rising ++ [⟨13, 12, 12⟩])) = 300 / 7 := by
  decide +kernel

end LongTrader.Indicators
