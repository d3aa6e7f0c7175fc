import LongTrader.Strategy.Executors
import Mathlib.Algebra.BigOperators.Group.List.Lemmas
import Mathlib.Algebra.BigOperators.Ring.List
import Mathlib.Algebra.Order.Ring.Abs
import Mathlib.Data.List.Nodup
import Mathlib.Tactic.FieldSimp
import Mathlib.Tactic.Linarith
import Mathlib.Tactic.Ring

/-! The portfolio rebalance: each asset whose weight has drifted out of the band is traded to its
target. Maps are the lists of their entries, and amounts are exact rationals. -/

namespace LongTrader.Strategy.Rebalance

structure RebalanceConfig where
  exchangeId : ExchangeId
  quoteAsset : String
  targets : List (String × ℚ)
  bandPct : ℚ
  distinct : (targets.map Prod.fst).Nodup

def weightSumTolerance : ℚ := 1 / 10 ^ 6

/-- What `validate_targets` says of a table that could not steer a portfolio to its targets. -/
inductive TargetError where
  | empty
  | negative (asset : String) (weight : ℚ)
  | sum (total : ℚ)
  deriving DecidableEq, Repr

def validateTargets (targets : List (String × ℚ)) : Except TargetError Unit :=
  if targets = [] then .error .empty
  else match targets.find? fun entry => entry.2 < 0 with
    | some (asset, weight) => .error (.negative asset weight)
    | none =>
      let total := (targets.map Prod.snd).sum
      if weightSumTolerance < |total - 1| then .error (.sum total) else .ok ()

def planTrades (values targets : List (String × ℚ)) : List (String × ℚ) :=
  let total := (values.map Prod.snd).sum
  if total ≤ 0 then []
  else targets.filterMap fun entry =>
    let delta := total * entry.2 - (values.lookup entry.1).getD 0
    if delta = 0 then none else some (entry.1, delta)

/-- What a tick reads: the balances of the account, the ticker of each symbol, and what the venue says
to the order of each symbol, if it refuses it. -/
structure Reading where
  balances : Except PortError (List (String × Option (Except DecimalConvertError ℚ)))
  tickers : String → TickerRead ℚ
  answers : String → Option PortError

/-- An asset of the targets as a tick values it. -/
structure Holding where
  asset : String
  balance : ℚ
  price : ℚ
  deriving DecidableEq, Repr

def Holding.value (holding : Holding) : ℚ := holding.balance * holding.price

/-- The plan of a tick and its legs, each with the holding that it is for; the plan is `none` when the
tick fails. -/
structure Ticked where
  legs : List (Holding × Submission)
  plan : Option (List (String × ℚ))

section Ticks

variable (config : RebalanceConfig) (reading : Reading)

def RebalanceConfig.symbol (asset : String) : String := asset ++ config.quoteAsset

/-- `Rebalance::price_of`; `none` is any of its errors. -/
def priceOf (asset : String) : Option ℚ :=
  match reading.tickers (config.symbol asset) with
  | .ok (some (.ok price)) => if price ≤ 0 then none else some price
  | _ => none

/-- The balance of an asset, which is zero when it is not reported or cannot be decoded. -/
def balanceOf (balances : List (String × Option (Except DecimalConvertError ℚ))) (asset : String) : ℚ :=
  match balances.find? fun balance => balance.1 = asset with
  | some (_, some (.ok total)) => total
  | _ => 0

/-- An asset at its price; the quote asset is worth one. -/
def valueOf (balances : List (String × Option (Except DecimalConvertError ℚ))) (entry : String × ℚ) :
    Option Holding :=
  (if entry.1 = config.quoteAsset then some 1 else priceOf config reading entry.1).map fun price =>
    ⟨entry.1, balanceOf balances entry.1, price⟩

/-- The valuation of the targets; `none` is a price that is missing. -/
def valuation (balances : List (String × Option (Except DecimalConvertError ℚ))) : Option (List Holding) :=
  config.targets.mapM (valueOf config reading balances)

/-- The trades of a tick, down to the first that is refused. -/
def trade (plan values : List (String × ℚ)) (totalValue : ℚ) : List Holding → List (Holding × Submission)
  | [] => []
  | holding :: rest =>
    let delta := (plan.lookup holding.asset).getD 0
    if delta = 0 then trade plan values totalValue rest
    else
      let actualWeight := (values.lookup holding.asset).getD 0 / totalValue
      let targetWeight := (config.targets.lookup holding.asset).getD 0
      if |actualWeight - targetWeight| ≤ config.bandPct then trade plan values totalValue rest
      else
        let symbol := config.symbol holding.asset
        let request := marketOrder config.exchangeId symbol (0 < delta) |delta / holding.price|
        match reading.answers symbol with
        | some _ => [(holding, ⟨request, false⟩)]
        | none => (holding, ⟨request, true⟩) :: trade plan values totalValue rest

/-- The values of the holdings by their assets. -/
def valuesOf (holdings : List Holding) : List (String × ℚ) :=
  holdings.map fun holding => (holding.asset, holding.value)

/-- `Rebalance::tick`. -/
def tick : Ticked :=
  match reading.balances with
  | .error _ => ⟨[], none⟩
  | .ok balances => match valuation config reading balances with
    | none => ⟨[], none⟩
    | some holdings =>
      let values := valuesOf holdings
      let plan := planTrades values config.targets
      let legs := trade config reading plan values (values.map Prod.snd).sum holdings
      ⟨legs, if legs.all fun leg => leg.2.accepted then some plan else none⟩

end Ticks

section Lookups

variable {β : Type} {entries : List (String × β)} {key : String}

/-- A key that is there once has its own value. -/
theorem lookup_of_distinct (distinct : (entries.map Prod.fst).Nodup) {value : β}
    (member : (key, value) ∈ entries) : entries.lookup key = some value := by
  obtain ⟨front, back, rfl⟩ := List.append_of_mem member
  rw [List.map_append, List.map_cons] at distinct
  have absent : key ∉ front.map Prod.fst := fun before =>
    (List.nodup_append.mp distinct).2.2 key before key (List.mem_cons_self ..) rfl
  have skips : front.lookup key = none := by
    refine List.lookup_eq_none_iff.mpr fun entry before => bne_iff_ne.mpr ?_
    rintro rfl
    exact absent (List.mem_map_of_mem before)
  rw [List.lookup_append, skips, Option.none_or, List.lookup_cons_self]

/-- Of a map without its zeros, a missing key reads as zero. -/
theorem lookup_filterMap {entries : List (String × ℚ)} (distinct : (entries.map Prod.fst).Nodup)
    (amount : String × ℚ → ℚ) {value : ℚ} (member : (key, value) ∈ entries) :
    ((entries.filterMap fun entry => if amount entry = 0 then none else some (entry.1, amount entry)).lookup
      key).getD 0 = amount (key, value) := by
  obtain ⟨front, back, rfl⟩ := List.append_of_mem member
  rw [List.map_append, List.map_cons, List.nodup_append, List.nodup_cons] at distinct
  obtain ⟨-, ⟨after, -⟩, before⟩ := distinct
  have skips : ∀ part : List (String × ℚ), key ∉ part.map Prod.fst →
      (part.filterMap fun entry => if amount entry = 0 then none else some (entry.1, amount entry)).lookup
        key = none := by
    intro part absent
    refine List.lookup_eq_none_iff.mpr fun entry found => bne_iff_ne.mpr ?_
    rintro rfl
    obtain ⟨other, among, kept⟩ := List.mem_filterMap.mp found
    split at kept
    · cases kept
    · obtain rfl := Option.some.inj kept
      have known := List.mem_map_of_mem (f := Prod.fst) among
      exact absent known
  have first := skips front fun found => before key found key (List.mem_cons_self ..) rfl
  rw [List.filterMap_append, List.lookup_append, first, Option.none_or]
  by_cases zero : amount (key, value) = 0
  · rw [List.filterMap_cons_none (by simp [zero]), skips back after, zero]
    rfl
  · rw [List.filterMap_cons_some (by simp only [if_neg zero]; rfl), List.lookup_cons_self]
    rfl

end Lookups

section Gaps

variable (config : RebalanceConfig) (holdings : List Holding)

/-- The worth of all holdings. -/
def totalOf : ℚ := (holdings.map Holding.value).sum

def targetOf (holding : Holding) : ℚ := (config.targets.lookup holding.asset).getD 0

/-- What a holding is short of its target slice. -/
def gapOf (holding : Holding) : ℚ := totalOf holdings * targetOf config holding - holding.value

/-- Whether a holding is left alone. -/
def WithinBand (holding : Holding) : Prop :=
  |holding.value / totalOf holdings - targetOf config holding| ≤ config.bandPct

instance (holding : Holding) : Decidable (WithinBand config holdings holding) :=
  inferInstanceAs (Decidable (_ ≤ _))

/-- What a leg adds to its asset: the quantity with its sign, and what that is worth. -/
def signedQty (leg : Holding × Submission) : ℚ :=
  if leg.2.request.side = .buy then leg.2.request.amount else -leg.2.request.amount

def quoteValue (leg : Holding × Submission) : ℚ := signedQty leg * leg.1.price

variable {config holdings} {reading : Reading}

/-- The holdings of a tick: one for each target, at a positive price. -/
structure Valued (config : RebalanceConfig) (holdings : List Holding) : Prop where
  assets : holdings.map Holding.asset = config.targets.map Prod.fst
  priced : ∀ holding ∈ holdings, 0 < holding.price

theorem valueOf_priced {balances : List (String × Option (Except DecimalConvertError ℚ))}
    {entry : String × ℚ} {holding : Holding} (valued : valueOf config reading balances entry = some holding) :
    holding.asset = entry.1 ∧ 0 < holding.price := by
  obtain ⟨price, priced, rfl⟩ := Option.map_eq_some_iff.mp valued
  refine ⟨rfl, ?_⟩
  by_cases quote : entry.1 = config.quoteAsset
  · rw [if_pos quote] at priced
    rw [← Option.some.inj priced]
    exact one_pos
  · rw [if_neg quote, priceOf] at priced
    split at priced
    · rename_i last _
      by_cases nonpositive : last ≤ 0
      · rw [if_pos nonpositive] at priced
        cases priced
      · rw [if_neg nonpositive] at priced
        exact Option.some.inj priced ▸ not_le.mp nonpositive
    · cases priced

theorem valuation_valued {balances : List (String × Option (Except DecimalConvertError ℚ))}
    (values : valuation config reading balances = some holdings) : Valued config holdings := by
  unfold valuation at values
  have each : ∀ (targets : List (String × ℚ)) (holdings : List Holding),
      targets.mapM (valueOf config reading balances) = some holdings →
        holdings.map Holding.asset = targets.map Prod.fst ∧ ∀ holding ∈ holdings, 0 < holding.price := by
    intro targets
    induction targets with
    | nil =>
      rintro _ ⟨⟩
      exact ⟨rfl, nofun⟩
    | cons entry rest ih =>
      intro holdings values
      simp only [List.mapM_cons, Option.bind_eq_bind, Option.bind_eq_some_iff] at values
      obtain ⟨holding, first, others, later, ⟨⟩⟩ := values
      obtain ⟨assets, priced⟩ := ih others later
      obtain ⟨asset, positive⟩ := valueOf_priced first
      refine ⟨by rw [List.map_cons, List.map_cons, asset, assets], ?_⟩
      exact List.forall_mem_cons.mpr ⟨positive, priced⟩
  obtain ⟨assets, priced⟩ := each _ _ values
  exact ⟨assets, priced⟩

variable (valued : Valued config holdings)

include valued

theorem Valued.sum_targets : (holdings.map (targetOf config)).sum = (config.targets.map Prod.snd).sum := by
  have looked : holdings.map (targetOf config) =
      (holdings.map Holding.asset).map fun asset => (config.targets.lookup asset).getD 0 := by
    rw [List.map_map]
    rfl
  rw [looked, valued.assets, List.map_map]
  congr 1
  refine List.map_congr_left fun entry member => ?_
  simp [lookup_of_distinct config.distinct member]

/-- The gaps of all holdings add up to what the targets are off one. -/
theorem Valued.sum_gaps : (holdings.map (gapOf config holdings)).sum =
    totalOf holdings * ((config.targets.map Prod.snd).sum - 1) := by
  have slices : (holdings.map (gapOf config holdings)).sum + (holdings.map Holding.value).sum =
      (holdings.map fun holding => totalOf holdings * targetOf config holding).sum := by
    rw [← List.sum_map_add]
    congr 1
    exact List.map_congr_left fun holding _ => sub_add_cancel _ _
  rw [List.sum_map_mul_left, valued.sum_targets, ← totalOf] at slices
  linarith

omit valued in
theorem sum_valuesOf : ((valuesOf holdings).map Prod.snd).sum = totalOf holdings := by
  rw [valuesOf, List.map_map]
  rfl

/-- What the maps of a tick say of a holding. -/
theorem Valued.looked_up {holding : Holding} (member : holding ∈ holdings) :
    (valuesOf holdings).lookup holding.asset = some holding.value ∧
      (holding.asset, targetOf config holding) ∈ config.targets := by
  have keys : ((valuesOf holdings).map Prod.fst).Nodup := by
    rw [valuesOf, List.map_map]
    exact valued.assets ▸ config.distinct
  refine ⟨lookup_of_distinct keys (List.mem_map_of_mem member), ?_⟩
  have asset : holding.asset ∈ config.targets.map Prod.fst := valued.assets ▸ List.mem_map_of_mem member
  obtain ⟨entry, found, same⟩ := List.mem_map.mp asset
  have own : (holding.asset, entry.2) ∈ config.targets := same ▸ found
  rw [targetOf, lookup_of_distinct config.distinct own]
  exact own

/-- The plan has the gap of each holding. -/
theorem Valued.planned (positive : 0 < totalOf holdings) {holding : Holding} (member : holding ∈ holdings) :
    ((planTrades (valuesOf holdings) config.targets).lookup holding.asset).getD 0 =
      gapOf config holdings holding := by
  obtain ⟨value, target⟩ := valued.looked_up member
  unfold planTrades
  dsimp only
  rw [sum_valuesOf, if_neg (not_le.mpr positive)]
  refine (lookup_filterMap config.distinct (fun entry => totalOf holdings * entry.2 -
    ((valuesOf holdings).lookup entry.1).getD 0) target).trans ?_
  rw [value]
  rfl

omit valued in
/-- A leg trades the gap of its holding. -/
theorem quoteValue_leg {holding : Holding} (priced : 0 < holding.price) (gap : ℚ) (symbol : String)
    (accepted : Bool) :
    quoteValue (holding, ⟨marketOrder config.exchangeId symbol (0 < gap) |gap / holding.price|, accepted⟩) =
      gap := by
  have back : gap / holding.price * holding.price = gap := div_mul_cancel₀ gap priced.ne'
  rcases lt_or_ge 0 gap with buys | sells
  · have positive : 0 < gap / holding.price := div_pos buys priced
    simp [quoteValue, signedQty, marketOrder, orderRequest, buys, abs_of_pos positive, back]
  · have negative : gap / holding.price ≤ 0 := div_nonpos_of_nonpos_of_nonneg sells priced.le
    simp [quoteValue, signedQty, marketOrder, orderRequest, not_lt.mpr sells, abs_of_nonpos negative, back]

/-- When all its legs are accepted, a tick trades the gap of each holding that is out of the band. -/
theorem Valued.trades (positive : 0 < totalOf holdings) {part : List Holding} (within : part ⊆ holdings)
    (accepts : ∀ leg ∈ trade config reading (planTrades (valuesOf holdings) config.targets)
        (valuesOf holdings) (totalOf holdings) part, leg.2.accepted = true) :
    (trade config reading (planTrades (valuesOf holdings) config.targets) (valuesOf holdings)
        (totalOf holdings) part).map (fun leg => (leg.1, quoteValue leg)) =
      (part.filter fun holding => gapOf config holdings holding ≠ 0 ∧
        ¬ WithinBand config holdings holding).map fun holding => (holding, gapOf config holdings holding) := by
  induction part with
  | nil => rfl
  | cons holding rest ih =>
    obtain ⟨member, others⟩ := List.cons_subset.mp within
    have drift : |holding.value / totalOf holdings - (config.targets.lookup holding.asset).getD 0| ≤
        config.bandPct ↔ WithinBand config holdings holding := Iff.rfl
    rw [trade, valued.planned positive member, (valued.looked_up member).1] at accepts ⊢
    dsimp only [Option.getD_some] at accepts ⊢
    by_cases closed : gapOf config holdings holding = 0
    · rw [if_pos closed] at accepts ⊢
      rw [ih others accepts, List.filter_cons_of_neg (by simp [closed])]
    rw [if_neg closed] at accepts ⊢
    by_cases inside : WithinBand config holdings holding
    · rw [if_pos (drift.mpr inside)] at accepts ⊢
      rw [ih others accepts, List.filter_cons_of_neg (by simp [inside])]
    rw [if_neg (mt drift.mp inside)] at accepts ⊢
    rw [List.filter_cons_of_pos (by simp [closed, inside])]
    cases answer : reading.answers (config.symbol holding.asset) with
    | some error => simp [answer] at accepts
    | none =>
      simp only [answer] at accepts ⊢
      rw [List.map_cons, List.map_cons, quoteValue_leg (valued.priced _ member),
        ih others fun leg later => accepts leg (List.mem_cons_of_mem _ later)]

omit valued in
/-- A gap is closed, or it is left within the band, or it is traded. -/
theorem sum_parts (part : List Holding) :
    ((part.filter fun holding => gapOf config holdings holding ≠ 0 ∧ ¬ WithinBand config holdings holding).map
        (gapOf config holdings)).sum +
      ((part.filter (WithinBand config holdings ·)).map (gapOf config holdings)).sum =
        (part.map (gapOf config holdings)).sum := by
  induction part with
  | nil => exact add_zero 0
  | cons holding rest ih =>
    rw [List.map_cons, List.sum_cons, ← ih]
    by_cases inside : WithinBand config holdings holding
    · simp only [List.filter_cons, inside, not_true_eq_false, and_false, decide_false, decide_true,
        Bool.false_eq_true, if_false, if_true, List.map_cons, List.sum_cons]
      ring
    by_cases closed : gapOf config holdings holding = 0
    · simp only [List.filter_cons, inside, closed, ne_eq, not_true_eq_false, false_and, decide_false,
        Bool.false_eq_true, if_false, zero_add]
    · simp only [List.filter_cons, inside, closed, ne_eq, not_false_eq_true, and_true, decide_false,
        decide_true, Bool.false_eq_true, if_false, if_true, List.map_cons, List.sum_cons]
      ring

omit valued in
/-- What a drift within the band is worth. -/
theorem gap_le_band (positive : 0 < totalOf holdings) {holding : Holding}
    (inside : WithinBand config holdings holding) :
    |gapOf config holdings holding| ≤ config.bandPct * totalOf holdings := by
  have gap : gapOf config holdings holding =
      -(holding.value / totalOf holdings - targetOf config holding) * totalOf holdings := by
    rw [gapOf]
    field_simp
    ring
  rw [gap, abs_mul, abs_neg, abs_of_pos positive]
  exact mul_le_mul_of_nonneg_right inside positive.le

omit valued in
theorem validated {targets : List (String × ℚ)} (valid : validateTargets targets = .ok ()) :
    |(targets.map Prod.snd).sum - 1| ≤ weightSumTolerance := by
  unfold validateTargets at valid
  split at valid
  · cases valid
  split at valid
  · cases valid
  · by_contra off
    simp [not_le.mp off] at valid

end Gaps

/-- When all orders of a tick are accepted, its legs and the gaps of the holdings that it leaves within
the band are worth nothing together, up to the tolerance of the targets; each such gap is at most the
band of the total, and each traded asset lands on its target slice. -/
theorem rebalance_neutral (config : RebalanceConfig) (reading : Reading)
    (balances : List (String × Option (Except DecimalConvertError ℚ))) (holdings : List Holding)
    (valid : validateTargets config.targets = .ok ()) (read : reading.balances = .ok balances)
    (values : valuation config reading balances = some holdings) (positive : 0 < totalOf holdings)
    (accepts : ∀ leg ∈ (tick config reading).legs, leg.2.accepted = true) :
    let left := holdings.filter (WithinBand config holdings)
    |((tick config reading).legs.map quoteValue).sum + (left.map (gapOf config holdings)).sum| ≤
        weightSumTolerance * totalOf holdings ∧
      (∀ holding ∈ left, |gapOf config holdings holding| ≤ config.bandPct * totalOf holdings) ∧
      ∀ leg ∈ (tick config reading).legs,
        leg.1 ∈ holdings ∧ (leg.1.balance + signedQty leg) * leg.1.price =
          totalOf holdings * targetOf config leg.1 := by
  have valued := valuation_valued values
  have legs : (tick config reading).legs = trade config reading (planTrades (valuesOf holdings) config.targets)
      (valuesOf holdings) (totalOf holdings) holdings := by
    rw [tick, read]
    dsimp only
    rw [values, ← sum_valuesOf]
  rw [legs] at accepts ⊢
  have trades := valued.trades positive (List.Subset.refl holdings) accepts
  have each : ∀ leg ∈ trade config reading (planTrades (valuesOf holdings) config.targets)
      (valuesOf holdings) (totalOf holdings) holdings,
      leg.1 ∈ holdings ∧ quoteValue leg = gapOf config holdings leg.1 := by
    intro leg member
    have traded := trades ▸ List.mem_map_of_mem
      (f := fun leg : Holding × Submission => (leg.1, quoteValue leg)) member
    obtain ⟨holding, among, same⟩ := List.mem_map.mp traded
    obtain ⟨own, worth⟩ := Prod.mk.inj same
    rw [← worth, ← own]
    exact ⟨(List.mem_filter.mp among).1, rfl⟩
  refine ⟨?_, ?_, ?_⟩
  · have worths := congrArg (fun traded => (traded.map Prod.snd).sum) trades
    rw [List.map_map, List.map_map] at worths
    have whole := valued.sum_gaps
    rw [← sum_parts] at whole
    have both := (congrArg (· + ((holdings.filter (WithinBand config holdings ·)).map
      (gapOf config holdings)).sum) worths).trans whole
    refine (congrArg abs both).trans_le ?_
    rw [abs_mul, abs_of_pos positive, mul_comm]
    exact mul_le_mul_of_nonneg_right (validated valid) positive.le
  · exact fun holding member => gap_le_band positive (of_decide_eq_true (List.mem_filter.mp member).2)
  · intro leg member
    obtain ⟨own, worth⟩ := each leg member
    refine ⟨own, ?_⟩
    rw [add_mul, ← quoteValue, worth, gapOf, ← Holding.value]
    ring

/-- A portfolio of three assets, at a band of five percent. -/
def threeAssets : RebalanceConfig where
  exchangeId := ⟨"sandbox", ""⟩
  quoteAsset := "USDT"
  targets := [("BTC", 1 / 2), ("ETH", 1 / 4), ("SOL", 1 / 4)]
  bandPct := 5 / 100
  distinct := by decide

/-- The balances of the three assets, each with a last price of one, on a venue that accepts. -/
def drifted (btc eth sol : ℚ) : Reading where
  balances := .ok [("BTC", some (.ok btc)), ("ETH", some (.ok eth)), ("SOL", some (.ok sol))]
  tickers _ := .ok (some (.ok 1))
  answers _ := none

def threeHeld (btc eth sol : ℚ) : List Holding := [⟨"BTC", btc, 1⟩, ⟨"ETH", eth, 1⟩, ⟨"SOL", sol, 1⟩]

/-- BTC is bought for six percent of the portfolio, and neither of the others is sold for it. -/
theorem band_unbalances_legs :
    validateTargets threeAssets.targets = .ok () ∧
      (∃ balances, (drifted 44 28 28).balances = .ok balances ∧
        valuation threeAssets (drifted 44 28 28) balances = some (threeHeld 44 28 28)) ∧
      (tick threeAssets (drifted 44 28 28)).plan = some [("BTC", 6), ("ETH", -3), ("SOL", -3)] ∧
      ((tick threeAssets (drifted 44 28 28)).legs.map fun leg =>
        (leg.2.request.symbol, signedQty leg, leg.2.accepted)) = [("BTCUSDT", 6, true)] ∧
      weightSumTolerance * totalOf (threeHeld 44 28 28) <
        |((tick threeAssets (drifted 44 28 28)).legs.map quoteValue).sum| := by
  refine ⟨by decide +kernel, ⟨_, rfl, by decide +kernel⟩, ?_⟩
  decide +kernel

/-- At a drift of ten percent each way, the two legs balance. -/
theorem rebalance_neutral_drifted :
    (tick threeAssets (drifted 60 15 25)).legs.map signedQty = [-10, 10] ∧
      ∀ leg ∈ (tick threeAssets (drifted 60 15 25)).legs,
        leg.1 ∈ threeHeld 60 15 25 ∧ (leg.1.balance + signedQty leg) * leg.1.price =
          totalOf (threeHeld 60 15 25) * targetOf threeAssets leg.1 :=
  ⟨by decide +kernel, (rebalance_neutral threeAssets (drifted 60 15 25) _ (threeHeld 60 15 25)
    (by decide +kernel) rfl (by decide +kernel) (by decide +kernel) (by decide +kernel)).2.2⟩

end LongTrader.Strategy.Rebalance
