import LongTrader.Strategy.VwapPlan
import Mathlib.Algebra.BigOperators.Group.List.Lemmas
import Mathlib.Tactic.FieldSimp
import Mathlib.Tactic.LinearCombination
import Mathlib.Tactic.Ring

/-! What the executors have worked off against what the venue has accepted. They count a child order
that was refused like any other, so that the two differ by what was refused. -/

namespace LongTrader.Strategy

section Amounts

/-- The amount of some child orders. -/
def amountOf (submissions : List Submission) : ℚ :=
  (submissions.map fun submission => submission.request.amount).sum

def accepted (submissions : List Submission) : List Submission :=
  submissions.filter fun submission => submission.accepted

def refused (submissions : List Submission) : List Submission :=
  submissions.filter fun submission => !submission.accepted

variable {submissions : List Submission}

theorem amountOf_append (first second : List Submission) :
    amountOf (first ++ second) = amountOf first + amountOf second := by
  simp [amountOf]

theorem accepted_add_refused (submissions : List Submission) :
    amountOf (accepted submissions) + amountOf (refused submissions) = amountOf submissions := by
  rw [← amountOf_append]
  exact ((List.filter_append_perm _ submissions).map _).sum_eq

theorem refused_eq_nil_iff : refused submissions = [] ↔ ∀ submission ∈ submissions, submission.accepted = true := by
  simp [refused]

/-- An invariant of an executor and its child orders that each tick keeps. -/
theorem ticks_invariant {σ ρ : Type} {tick : σ → ρ → σ × List Submission}
    {holds : σ → List Submission → Prop}
    (kept : ∀ executor submissions reading, holds executor submissions →
      holds (tick executor reading).1 (submissions ++ (tick executor reading).2))
    {executor : σ} (start : holds executor submissions) (readings : List ρ) :
    holds (ticks tick executor readings).1 (submissions ++ (ticks tick executor readings).2) := by
  induction readings generalizing executor submissions with
  | nil => simpa [ticks] using start
  | cons reading rest ih =>
    have later := ih (kept executor submissions reading start)
    rw [List.append_assoc] at later
    exact later

end Amounts

namespace Twap

variable (config : TwapConfig)

/-- What the executor has still to submit. -/
def TwapExecutor.outstanding (executor : TwapExecutor) : ℚ :=
  (config.numOrders - executor.nextIndex : Nat) * config.stepAmount

/-- The schedule: one child order of the same amount for each index. -/
structure Schedule (executor : TwapExecutor) (submissions : List Submission) : Prop where
  length : submissions.length = executor.nextIndex
  amounts : ∀ submission ∈ submissions, submission.request.amount = config.stepAmount
  bound : executor.nextIndex ≤ config.numOrders
  complete : executor.state = .complete → config.numOrders ≤ executor.nextIndex

theorem Schedule.new : Schedule config .new [] := ⟨rfl, by simp, Nat.zero_le _, nofun⟩

theorem Schedule.tick (executor : TwapExecutor) (submissions : List Submission) (reading : Reading)
    (schedule : Schedule config executor submissions) :
    Schedule config (executor.tick config reading).1 (submissions ++ (executor.tick config reading).2) := by
  unfold TwapExecutor.tick
  split
  · simpa using schedule
  split
  · rename_i all
    simpa using ⟨schedule.length, schedule.amounts, schedule.bound, fun _ => all⟩
  rename_i more
  split
  · simpa using schedule
  split
  · simpa using schedule
  · rename_i active _ _ _ _
    refine ⟨?_, ?_, ?_, ?_⟩
    · simp [schedule.length]
    · intro submission member
      rcases List.mem_append.mp member with earlier | last
      · exact schedule.amounts submission earlier
      · rw [List.mem_singleton.mp last]
        rfl
    · exact Nat.lt_of_not_le more
    · exact fun done => absurd done active

variable {config} {executor : TwapExecutor} {submissions : List Submission}

theorem Schedule.amountOf (schedule : Schedule config executor submissions) {part : List Submission}
    (within : part ⊆ submissions) : amountOf part = part.length * config.stepAmount := by
  have same : ∀ amount ∈ part.map fun submission => submission.request.amount, amount = config.stepAmount := by
    intro amount member
    obtain ⟨submission, found, rfl⟩ := List.mem_map.mp member
    exact schedule.amounts submission (within found)
  rw [Strategy.amountOf, List.sum_eq_card_nsmul _ _ same, List.length_map, nsmul_eq_mul]

/-- What the schedule makes of the amount: the refused child orders are missing from it. -/
theorem Schedule.accounts (schedule : Schedule config executor submissions) :
    Strategy.amountOf (accepted submissions) + executor.outstanding config +
      (refused submissions).length * config.stepAmount = config.numOrders * config.stepAmount := by
  have parts := accepted_add_refused submissions
  have part : refused submissions ⊆ submissions := List.filter_sublist.subset
  rw [schedule.amountOf (List.Subset.refl submissions), schedule.length, schedule.amountOf part] at parts
  rw [TwapExecutor.outstanding, Nat.cast_sub schedule.bound]
  linear_combination parts

theorem Schedule.conserved_iff (schedule : Schedule config executor submissions) :
    Strategy.amountOf (accepted submissions) + executor.outstanding config = config.totalAmount ↔
      config.totalAmount = 0 ∨ config.numOrders ≠ 0 ∧ refused submissions = [] := by
  have accounts := schedule.accounts
  by_cases none_asked : config.numOrders = 0
  · have nothing : submissions = [] := by
      have bound := schedule.bound
      rw [none_asked, ← schedule.length] at bound
      exact List.eq_nil_of_length_eq_zero (by omega)
    have step : config.stepAmount = 0 := by simp [TwapConfig.stepAmount, none_asked]
    have zero : Strategy.amountOf (accepted submissions) + executor.outstanding config = 0 := by
      simp [TwapExecutor.outstanding, step, nothing, accepted, Strategy.amountOf]
    rw [zero]
    simp only [none_asked, ne_eq, not_true_eq_false, false_and, or_false]
    exact eq_comm
  · have whole : config.numOrders * config.stepAmount = config.totalAmount := by
      rw [TwapConfig.stepAmount]
      field_simp
    rw [whole] at accounts
    have zero_iff : config.stepAmount = 0 ↔ config.totalAmount = 0 := by
      rw [TwapConfig.stepAmount, div_eq_zero_iff]
      simp [none_asked]
    constructor
    · intro conserved
      have none_missing : ((refused submissions).length : ℚ) * config.stepAmount = 0 := by linarith
      rcases mul_eq_zero.mp none_missing with none_refused | no_amount
      · exact .inr ⟨none_asked, List.eq_nil_of_length_eq_zero (by exact_mod_cast none_refused)⟩
      · exact .inl (zero_iff.mp no_amount)
    · rintro (no_amount | ⟨-, none_refused⟩)
      · rw [zero_iff.mpr no_amount, mul_zero, add_zero] at accounts
        exact accounts
      · rw [none_refused, List.length_nil, Nat.cast_zero, zero_mul, add_zero] at accounts
        exact accounts

theorem Schedule.outstanding_complete (schedule : Schedule config executor submissions)
    (complete : executor.state = .complete) : executor.outstanding config = 0 := by
  rw [TwapExecutor.outstanding, Nat.sub_eq_zero_of_le (schedule.complete complete), Nat.cast_zero, zero_mul]

end Twap

namespace Vwap

open Indicators

variable (config : VwapConfig)

theorem takesOff_rational (remaining : ℚ) (orders : List (VwapOrder ℚ)) :
    TakesOff Arithmetic.rational id remaining orders := by
  induction orders generalizing remaining with
  | nil => trivial
  | cons order rest ih =>
    rintro _ ⟨⟩
    exact ⟨rfl, ih _⟩

/-- A plan for a positive amount is of positive amounts, and of no more than it in all. -/
theorem planVwapOrders_amounts {mid priceSpread volumePerc remaining : ℚ} {levels : List (ℚ × ℚ)}
    {orders : List (VwapOrder ℚ)} (positive : 0 < remaining)
    (plan : planVwapOrders Arithmetic.rational mid priceSpread volumePerc remaining levels =
      some (some orders)) :
    (∀ order ∈ orders, 0 < order.amount) ∧ planned id orders ≤ remaining := by
  obtain ⟨cap, -, plans⟩ := planVwapOrders_some plan
  have some_left : Arithmetic.rational.ofNat 0 < remaining := by simpa using positive
  have amounts := planLevels_positive some_left plans
  have total := planned_planLevels strictMono_id Nat.cast_zero some_left plans (takesOff_rational _ _)
  refine ⟨by simpa using amounts, ?_⟩
  rw [total]
  exact min_le_left ..

theorem submitOrders_spec (answers : Nat → Option PortError) (remaining : ℚ) (orders : List (VwapOrder ℚ)) :
    (submitOrders config answers remaining orders).1 = remaining - planned id orders ∧
      (submitOrders config answers remaining orders).2.map (fun submission => submission.request.amount) =
        orders.map VwapOrder.amount := by
  induction orders generalizing answers remaining with
  | nil => simp [submitOrders, planned]
  | cons order rest ih =>
    obtain ⟨left, amounts⟩ := ih (fun n => answers (n + 1)) (remaining - order.amount)
    refine ⟨?_, ?_⟩
    · rw [submitOrders, left, planned, planned, List.map_cons, List.sum_cons]
      simp only [id]
      ring
    · rw [submitOrders, List.map_cons, amounts, List.map_cons]
      rfl

/-- The balance: what was submitted and what remains make up the amount. -/
structure Balance (executor : VwapExecutor) (submissions : List Submission) : Prop where
  total : amountOf submissions + executor.remaining = config.totalAmount
  amounts : ∀ submission ∈ submissions, 0 < submission.request.amount
  bound : 0 ≤ config.totalAmount → 0 ≤ executor.remaining

theorem Balance.new : Balance config (.new config) [] :=
  ⟨by simp [amountOf, VwapExecutor.new], by simp, fun nonnegative => nonnegative⟩

theorem Balance.tick (executor : VwapExecutor) (submissions : List Submission) (reading : Reading)
    (balance : Balance config executor submissions) :
    Balance config (executor.tick config reading).1 (submissions ++ (executor.tick config reading).2) := by
  unfold VwapExecutor.tick
  split
  · simpa using balance
  rename_i unfinished
  split
  · simpa using balance
  split
  · split
    · rename_i orders plan
      have positive := not_le.mp unfinished
      obtain ⟨amounts, bound⟩ := planVwapOrders_amounts positive plan
      obtain ⟨left, same⟩ := submitOrders_spec config reading.answers executor.remaining orders
      refine ⟨?_, ?_, fun _ => ?_⟩
      · rw [amountOf_append, ← balance.total]
        dsimp only
        rw [left, amountOf, amountOf, same, planned]
        simp only [id]
        ring
      · intro submission member
        rcases List.mem_append.mp member with earlier | later
        · exact balance.amounts submission earlier
        · have found : submission.request.amount ∈ orders.map VwapOrder.amount := by
            rw [← same]
            exact List.mem_map_of_mem later
          obtain ⟨order, asked, amount⟩ := List.mem_map.mp found
          rw [← amount]
          exact amounts order asked
      · dsimp only
        rw [left]
        linarith
    · simpa using balance
  · simpa using balance

variable {config} {executor : VwapExecutor} {submissions : List Submission}

theorem Balance.accepted_nonneg (balance : Balance config executor submissions) :
    0 ≤ amountOf (accepted submissions) := by
  refine List.sum_nonneg fun amount member => ?_
  obtain ⟨submission, found, rfl⟩ := List.mem_map.mp member
  exact (balance.amounts submission (List.filter_sublist.subset found)).le

theorem Balance.conserved_iff (balance : Balance config executor submissions) :
    amountOf (accepted submissions) + executor.remaining = config.totalAmount ↔ refused submissions = [] := by
  have parts := accepted_add_refused submissions
  have total := balance.total
  constructor
  · intro conserved
    by_contra some_refused
    have missing : 0 < amountOf (refused submissions) := by
      refine List.sum_pos _ ?_ (by simpa using some_refused)
      intro amount member
      obtain ⟨submission, found, rfl⟩ := List.mem_map.mp member
      exact balance.amounts submission (List.filter_sublist.subset found)
    linarith
  · intro none_refused
    have nothing : amountOf (refused submissions) = 0 := by simp [none_refused, amountOf]
    linarith

end Vwap

/-- What is accepted and what is outstanding make up the amount, and on completion all of it is
accepted, just if no child order is refused; TWAP asks for at least one child order, unless there is
nothing to execute, and VWAP for an amount that is not negative. -/
theorem execution_conserved_iff (twap : Twap.TwapConfig) (vwap : Vwap.VwapConfig)
    (twapReadings : List Twap.Reading) (vwapReadings : List Vwap.Reading) :
    ((amountOf (accepted (Twap.run twap twapReadings).2) + (Twap.run twap twapReadings).1.outstanding twap =
          twap.totalAmount ∧
        ((Twap.run twap twapReadings).1.state = .complete →
          amountOf (accepted (Twap.run twap twapReadings).2) = twap.totalAmount)) ↔
      twap.totalAmount = 0 ∨ twap.numOrders ≠ 0 ∧
        ∀ submission ∈ (Twap.run twap twapReadings).2, submission.accepted = true) ∧
    ((amountOf (accepted (Vwap.run vwap vwapReadings).2) + (Vwap.run vwap vwapReadings).1.remaining =
          vwap.totalAmount ∧
        ((Vwap.run vwap vwapReadings).1.remaining ≤ 0 →
          amountOf (accepted (Vwap.run vwap vwapReadings).2) = vwap.totalAmount)) ↔
      0 ≤ vwap.totalAmount ∧
        ∀ submission ∈ (Vwap.run vwap vwapReadings).2, submission.accepted = true) := by
  constructor
  · have schedule : Twap.Schedule twap (Twap.run twap twapReadings).1 (Twap.run twap twapReadings).2 :=
      ticks_invariant (Twap.Schedule.tick twap) (Twap.Schedule.new twap) twapReadings
    rw [← refused_eq_nil_iff, ← schedule.conserved_iff]
    refine ⟨fun both => both.1, fun conserved => ⟨conserved, fun complete => ?_⟩⟩
    rwa [schedule.outstanding_complete complete, add_zero] at conserved
  · have balance : Vwap.Balance vwap (Vwap.run vwap vwapReadings).1 (Vwap.run vwap vwapReadings).2 :=
      ticks_invariant (Vwap.Balance.tick vwap) (Vwap.Balance.new vwap) vwapReadings
    rw [← refused_eq_nil_iff, ← balance.conserved_iff]
    constructor
    · rintro ⟨conserved, finished⟩
      refine ⟨?_, conserved⟩
      by_contra negative
      have some_accepted := balance.accepted_nonneg
      have complete := finished (by linarith)
      linarith
    · rintro ⟨nonnegative, conserved⟩
      refine ⟨conserved, fun complete => ?_⟩
      have none_left := le_antisymm complete (balance.bound nonnegative)
      rwa [none_left, add_zero] at conserved

/-- One unit in two child orders. -/
def halves : Twap.TwapConfig where
  exchangeId := ⟨"mock", ""⟩
  symbol := "BTC/USDT"
  totalAmount := 1
  durationSecs := 10
  numOrders := 2
  isBuy := true
  isMaker := true
  limitBuffer := 0

/-- One unit, all of it at the first level of the book. -/
def unit : Vwap.VwapConfig where
  exchangeId := ⟨"mock", ""⟩
  symbol := "BTC/USDT"
  totalAmount := 1
  priceSpread := 1
  volumePerc := 1
  orderDelaySecs := 10
  isBuy := true

/-- Ticks at a price of 100, of which the first is refused its child order. -/
def refusedOnce : List Twap.Reading :=
  [⟨100, .ok (some (.ok 100)), some (.transport "refused")⟩, ⟨200, .ok (some (.ok 100)), none⟩,
    ⟨300, .ok (some (.ok 100)), none⟩]

def refusedAll : List Vwap.Reading :=
  [⟨100, .ok (some (.ok 100)), .ok ⟨[], [(some (.ok 100), some (.ok 5))]⟩, fun _ => some (.transport "refused")⟩]

/-- Both executors complete with less accepted than they were to execute. -/
theorem execution_falls_short :
    (Twap.run halves refusedOnce).1.state = .complete ∧
      amountOf (accepted (Twap.run halves refusedOnce).2) = 1 / 2 ∧
      halves.totalAmount = 1 ∧
      (Vwap.run unit refusedAll).1.remaining = 0 ∧
      amountOf (accepted (Vwap.run unit refusedAll).2) = 0 ∧
      unit.totalAmount = 1 := by
  decide +kernel

end LongTrader.Strategy
