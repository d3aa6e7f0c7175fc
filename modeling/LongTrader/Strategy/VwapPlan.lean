import LongTrader.Strategy.Executors
import LongTrader.Indicators.Rounded
import Mathlib.Algebra.Order.BigOperators.Group.List
import Mathlib.Tactic.Linarith

/-! The VWAP plan against the book that it is made from: its orders are levels of the book, in the
book's order, and they take what the levels near enough to mid can give, up to the total. -/

namespace LongTrader.Strategy.Vwap

open Indicators

section Book

variable {P : Type} [LinearOrder P] (arith : Arithmetic P) (mid cap volumePerc : P)

/-- The code finds a level of the book near enough to mid. -/
def near (level : P × P) : Bool :=
  (arith.sub level.1 mid).any fun distance => arith.abs distance ≤ cap

/-- The code finds a level of the book near enough to mid, and something to take. -/
def admissible (level : P × P) : Bool :=
  near arith mid cap level && (arith.mul level.2 volumePerc).any (arith.ofNat 0 < ·)

/-- What the code finds the admissible levels of a book to give. -/
def admissibleVolume (value : P → ℚ) (levels : List (P × P)) : ℚ :=
  ((levels.filter (admissible arith mid cap volumePerc)).map fun level =>
    ((arith.mul level.2 volumePerc).map value).getD 0).sum

/-- An order takes the share of a level near mid, or less. -/
def VwapOrder.TakenFrom (order : VwapOrder P) (level : P × P) : Prop :=
  order.price = level.1 ∧ near arith mid cap level = true ∧
    ∃ share, arith.mul level.2 volumePerc = some share ∧ order.amount ≤ share

/-- The amounts of planned orders. -/
def planned (value : P → ℚ) (orders : List (VwapOrder P)) : ℚ :=
  (orders.map fun order => value order.amount).sum

/-- What remains is not rounded when the amounts of the orders are taken off it. -/
def TakesOff (value : P → ℚ) : P → List (VwapOrder P) → Prop
  | _, [] => True
  | remaining, order :: rest => ∀ left ∈ arith.sub remaining order.amount,
      value left = value remaining - value order.amount ∧ TakesOff value left rest

end Book

section Loop

variable {P : Type} [LinearOrder P] {arith : Arithmetic P} {mid cap volumePerc remaining : P}
  {value : P → ℚ}

/-- The loop passes over a level that is not admissible, and takes what it can of one that is. -/
theorem planLevels_cases {level : P × P} {rest : List (P × P)} {orders : List (VwapOrder P)}
    (plans : planLevels arith mid cap volumePerc remaining (level :: rest) = some orders) :
    admissible arith mid cap volumePerc level = false ∧
        planLevels arith mid cap volumePerc remaining rest = some orders ∨
      near arith mid cap level = true ∧
        ∃ share left further, arith.mul level.2 volumePerc = some share ∧ arith.ofNat 0 < share ∧
          arith.sub remaining (min share remaining) = some left ∧
          orders = ⟨level.1, min share remaining⟩ :: further ∧
          (left ≤ arith.ofNat 0 ∧ further = [] ∨
            arith.ofNat 0 < left ∧ planLevels arith mid cap volumePerc left rest = some further) := by
  obtain ⟨price, size⟩ := level
  rw [planLevels] at plans
  obtain ⟨distance, apart, plans⟩ := Option.bind_eq_some_iff.mp plans
  split at plans
  · rename_i far
    exact .inl ⟨by simp [admissible, near, apart, far], plans⟩
  rename_i close
  obtain ⟨share, product, plans⟩ := Option.bind_eq_some_iff.mp plans
  split at plans
  · rename_i empty
    exact .inl ⟨by simp [admissible, product, empty], plans⟩
  rename_i sized
  obtain ⟨left, takes, plans⟩ := Option.bind_eq_some_iff.mp plans
  refine .inr ⟨by simp [near, apart, not_lt.mp close], share, left, ?_⟩
  split at plans
  · rename_i done
    exact ⟨[], product, not_le.mp sized, takes, (Option.some.inj plans).symm, .inl ⟨done, rfl⟩⟩
  · rename_i more
    obtain ⟨further, continues, same⟩ := Option.bind_eq_some_iff.mp plans
    exact ⟨further, product, not_le.mp sized, takes, (Option.some.inj same).symm, .inr ⟨not_le.mp more, continues⟩⟩

/-- A plan for a positive amount is of positive amounts. -/
theorem planLevels_positive {levels : List (P × P)} {orders : List (VwapOrder P)}
    (positive : arith.ofNat 0 < remaining)
    (plans : planLevels arith mid cap volumePerc remaining levels = some orders) :
    ∀ order ∈ orders, arith.ofNat 0 < order.amount := by
  induction levels generalizing remaining orders with
  | nil =>
    obtain rfl := Option.some.inj plans
    exact fun _ member => absurd member List.not_mem_nil
  | cons level rest ih =>
    rcases planLevels_cases plans with ⟨-, others⟩ |
      ⟨-, share, left, further, -, sized, -, rfl, ⟨-, rfl⟩ | ⟨more, others⟩⟩
    · exact ih positive others
    · exact List.forall_mem_singleton.mpr (lt_min sized positive)
    · exact List.forall_mem_cons.mpr ⟨lt_min sized positive, ih more others⟩

/-- The orders of a plan are levels of the book, in the book's order. -/
theorem planLevels_taken {levels : List (P × P)} {orders : List (VwapOrder P)}
    (plans : planLevels arith mid cap volumePerc remaining levels = some orders) :
    ∃ chosen, chosen.Sublist levels ∧
      List.Forall₂ (VwapOrder.TakenFrom arith mid cap volumePerc) orders chosen := by
  induction levels generalizing remaining orders with
  | nil =>
    obtain rfl := Option.some.inj plans
    exact ⟨[], List.Sublist.slnil, List.Forall₂.nil⟩
  | cons level rest ih =>
    rcases planLevels_cases plans with ⟨-, others⟩ |
      ⟨close, share, left, further, product, -, -, rfl, ⟨-, rfl⟩ | ⟨-, others⟩⟩
    · obtain ⟨chosen, sublist, aligned⟩ := ih others
      exact ⟨chosen, sublist.cons level, aligned⟩
    · exact ⟨[level], (List.nil_sublist rest).cons_cons level,
        List.Forall₂.cons ⟨rfl, close, share, product, min_le_left ..⟩ .nil⟩
    · obtain ⟨chosen, sublist, aligned⟩ := ih others
      exact ⟨level :: chosen, sublist.cons_cons level,
        List.Forall₂.cons ⟨rfl, close, share, product, min_le_left ..⟩ aligned⟩

section Volume

variable {level : P × P} {rest : List (P × P)}

theorem admissibleVolume_nonneg (increasing : StrictMono value) (zero : value (arith.ofNat 0) = 0)
    (levels : List (P × P)) : 0 ≤ admissibleVolume arith mid cap volumePerc value levels := by
  refine List.sum_nonneg fun amount member => ?_
  obtain ⟨level, kept, rfl⟩ := List.mem_map.mp member
  have sized := (Bool.and_eq_true_iff.mp (List.mem_filter.mp kept).2).2
  cases product : arith.mul level.2 volumePerc with
  | none => exact le_refl 0
  | some share =>
    rw [product, Option.any_some, decide_eq_true_eq] at sized
    exact zero.symm.trans_le (increasing sized).le

theorem admissibleVolume_skip (skipped : admissible arith mid cap volumePerc level = false) :
    admissibleVolume arith mid cap volumePerc value (level :: rest) =
      admissibleVolume arith mid cap volumePerc value rest := by
  simp [admissibleVolume, skipped]

theorem admissibleVolume_take {share : P} (close : near arith mid cap level = true)
    (product : arith.mul level.2 volumePerc = some share) (sized : arith.ofNat 0 < share) :
    admissibleVolume arith mid cap volumePerc value (level :: rest) =
      value share + admissibleVolume arith mid cap volumePerc value rest := by
  simp [admissibleVolume, admissible, close, product, sized]

end Volume

/-- A plan takes what the admissible levels can give, up to the amount, if nothing that remains is
rounded. -/
theorem planned_planLevels (increasing : StrictMono value) (zero : value (arith.ofNat 0) = 0)
    {levels : List (P × P)} {orders : List (VwapOrder P)} (positive : arith.ofNat 0 < remaining)
    (plans : planLevels arith mid cap volumePerc remaining levels = some orders)
    (exact : TakesOff arith value remaining orders) :
    planned value orders = min (value remaining) (admissibleVolume arith mid cap volumePerc value levels) := by
  induction levels generalizing remaining orders with
  | nil =>
    obtain rfl := Option.some.inj plans
    have some_left := increasing positive
    rw [zero] at some_left
    simp [planned, admissibleVolume, some_left.le]
  | cons level rest ih =>
    have others_nonneg : 0 ≤ admissibleVolume arith mid cap volumePerc value rest :=
      admissibleVolume_nonneg increasing zero rest
    rcases planLevels_cases plans with ⟨skipped, others⟩ |
      ⟨close, share, left, further, product, sized, takes, rfl, through⟩
    · rw [admissibleVolume_skip skipped]
      exact ih positive others exact
    obtain ⟨taken, later⟩ := exact left takes
    rw [admissibleVolume_take close product sized, planned, List.map_cons, List.sum_cons, ← planned]
    rcases through with ⟨done, rfl⟩ | ⟨more, others⟩
    · -- The level has all that remains.
      have none_left := increasing.monotone done
      rw [zero, taken, sub_nonpos] at none_left
      have full : remaining ≤ share := increasing.le_iff_le.mp (none_left.trans
        (increasing.monotone (min_le_left ..)))
      have enough := increasing.monotone full
      rw [min_eq_right full, min_eq_left (by linarith)]
      simp [planned]
    · -- The level gives its whole share.
      have some_left := increasing more
      rw [zero, taken, sub_pos] at some_left
      have short : share < remaining := by
        by_contra full
        rw [min_eq_right (not_lt.mp full)] at some_left
        exact lt_irrefl _ some_left
      rw [ih more others later, ← min_add_add_left, taken]
      simp [min_eq_left short.le]

theorem planVwapOrders_some {priceSpread total : P} {levels : List (P × P)} {orders : List (VwapOrder P)}
    (plan : planVwapOrders arith mid priceSpread volumePerc total levels = some (some orders)) :
    ∃ cap, arith.mul mid priceSpread = some cap ∧
      planLevels arith mid cap volumePerc total levels = some orders := by
  unfold planVwapOrders at plan
  split at plan
  · cases plan
  obtain ⟨cap, product, plan⟩ := Option.bind_eq_some_iff.mp plan
  obtain ⟨planned, plans, same⟩ := Option.bind_eq_some_iff.mp plan
  have filled := Option.some.inj same
  split at filled
  · cases filled
  · obtain rfl := Option.some.inj filled
    exact ⟨cap, product, plans⟩

/-- What a VWAP plan comes to: positive amounts, none of them more than the share of the level it is
taken from, all of them near mid and in the book's order; and if nothing that remains is rounded, together
the total if the admissible levels hold it and never more. -/
theorem planVwapOrders_plan (increasing : StrictMono value) (zero : value (arith.ofNat 0) = 0)
    {priceSpread total : P} {levels : List (P × P)} {orders : List (VwapOrder P)}
    (positive : arith.ofNat 0 < total)
    (plan : planVwapOrders arith mid priceSpread volumePerc total levels = some (some orders)) :
    ∃ cap, arith.mul mid priceSpread = some cap ∧ (∀ order ∈ orders, arith.ofNat 0 < order.amount) ∧
      (∃ chosen, chosen.Sublist levels ∧
        List.Forall₂ (VwapOrder.TakenFrom arith mid cap volumePerc) orders chosen) ∧
      (TakesOff arith value total orders → planned value orders ≤ value total ∧
        (value total ≤ admissibleVolume arith mid cap volumePerc value levels →
          planned value orders = value total)) := by
  obtain ⟨cap, product, plans⟩ := planVwapOrders_some plan
  refine ⟨cap, product, planLevels_positive positive plans, planLevels_taken plans, fun exact => ?_⟩
  rw [planned_planLevels increasing zero positive plans exact]
  exact ⟨min_le_left .., fun enough => min_eq_left enough⟩

end Loop

/-- Two of three levels are near enough, and the second of them gives the rest. -/
theorem planVwapOrders_plan_three :
    let orders : List (VwapOrder ℚ) := [⟨99, 2⟩, ⟨101, 1⟩]
    ∃ cap, Arithmetic.rounded.mul 100 (1 / 10) = some cap ∧ (∀ order ∈ orders, 0 < order.amount) ∧
      (∃ chosen, chosen.Sublist [(99, 4), (150, 9), ((101 : ℚ), (5 : ℚ))] ∧
        List.Forall₂ (VwapOrder.TakenFrom Arithmetic.rounded 100 cap (1 / 2)) orders chosen) ∧
      (TakesOff Arithmetic.rounded id 3 orders → planned id orders ≤ 3 ∧
        (3 ≤ admissibleVolume Arithmetic.rounded 100 cap (1 / 2) id [(99, 4), (150, 9), (101, 5)] →
          planned id orders = 3)) :=
  planVwapOrders_plan strictMono_id Nat.cast_zero (by decide) (by decide +kernel)

/-- A third of the venue's volume, to as many digits as there are. -/
def third : ℚ := 3333333333333333333333333333 / 10 ^ 28

/-- What remains of ten behind a third is rounded up, so that the two orders are for more than ten; the share
of a level is rounded up; and so is the distance from mid that is near enough. -/
theorem plan_rounded :
    planVwapOrders Arithmetic.rounded 100 (1 / 100) third 10 [(100, 1), (100, 100)] =
        some (some [⟨100, third⟩, ⟨100, 9666666666666666666666666667 / 10 ^ 27⟩]) ∧
      10 < planned id [⟨100, third⟩, (⟨100, 9666666666666666666666666667 / 10 ^ 27⟩ : VwapOrder ℚ)] ∧
      planVwapOrders Arithmetic.rounded 100 (1 / 100) third 10 [(100, 1 / 5)] =
        some (some [⟨100, 666666666666666666666666667 / 10 ^ 28⟩]) ∧
      1 / 5 * third < 666666666666666666666666667 / 10 ^ 28 ∧
      planVwapOrders Arithmetic.rounded (1 / 5) third 1 10 [(2666666666666666666666666667 / 10 ^ 28, 1)] =
        some (some [⟨2666666666666666666666666667 / 10 ^ 28, 1⟩]) ∧
      1 / 5 * third < 2666666666666666666666666667 / 10 ^ 28 - 1 / 5 := by
  decide +kernel

end LongTrader.Strategy.Vwap
