import LongTrader.Risk.Gateway
import LongTrader.Risk.Rate

/-! What the gate decides, against the limits as they are documented. The gate compares quantities
and notionals with their sign, so a negative one is within every limit. -/

namespace LongTrader.Risk

section Checks

variable {ops : DecimalOps} {limits : RiskLimits}

/-- No limit that is configured is exceeded. -/
theorem filter_lt_eq_none_iff {configured : Option Decimal} {actual : Decimal} :
    (configured.filter fun limit => limit.lt actual) = none ↔
      ∀ limit, configured = some limit → actual.value ≤ limit.value := by
  cases configured with
  | none => simp
  | some limit =>
    rw [Option.filter_some]
    have compares := Decimal.lt_iff limit actual
    cases exceeded : limit.lt actual with
    | true =>
      have above := compares.mp exceeded
      simp [above]
    | false =>
      rw [exceeded] at compares
      simpa using compares

/-- What the gate asks of one intent: its quantity and, where it has a price, its notional. -/
structure OrderIntent.Passes (ops : DecimalOps) (limits : RiskLimits) (intent : OrderIntent) : Prop where
  qty : ∀ limit, limits.maxOrderQty = some limit → intent.qty.value ≤ limit.value
  notional : ∀ price, intent.price = some price → ∃ total, ops.mul price intent.qty = some total ∧
    ∀ limit, limits.maxOrderNotional = some limit → total.value ≤ limit.value

theorem checkIntent_ok_iff {intent : OrderIntent} :
    checkIntent ops limits intent = some (.ok ()) ↔ intent.Passes ops limits := by
  unfold checkIntent
  cases exceeded : limits.maxOrderQty.filter fun limit => limit.lt intent.qty with
  | some limit =>
    refine ⟨nofun, fun passes => ?_⟩
    rw [filter_lt_eq_none_iff.mpr passes.qty] at exceeded
    cases exceeded
  | none =>
    have qty := filter_lt_eq_none_iff.mp exceeded
    cases priced : intent.price with
    | none => simpa [OrderIntent.notional, priced] using ⟨qty, by simp [priced]⟩
    | some price =>
      cases multiplied : ops.mul price intent.qty with
      | none =>
        simp only [OrderIntent.notional, priced, multiplied, Option.map_none]
        refine ⟨nofun, fun passes => ?_⟩
        obtain ⟨total, computed, _⟩ := passes.notional price priced
        rw [multiplied] at computed
        cases computed
      | some total =>
        simp only [OrderIntent.notional, priced, multiplied, Option.map_some]
        cases above : limits.maxOrderNotional.filter fun limit => limit.lt total with
        | some limit =>
          refine ⟨nofun, fun passes => ?_⟩
          obtain ⟨_, computed, within⟩ := passes.notional price priced
          obtain rfl := Option.some.inj (multiplied.symm.trans computed)
          rw [filter_lt_eq_none_iff.mpr within] at above
          cases above
        | none =>
          refine ⟨fun _ => ⟨qty, ?_⟩, fun _ => rfl⟩
          intro given same
          obtain rfl := Option.some.inj (priced.symm.trans same)
          exact ⟨total, multiplied, filter_lt_eq_none_iff.mp above⟩

theorem checkIntents_ok_iff {intents : List OrderIntent} :
    checkIntents ops limits intents = some (.ok ()) ↔
      ∀ intent ∈ intents, intent.Passes ops limits := by
  induction intents with
  | nil => simp [checkIntents]
  | cons intent rest ih =>
    rw [List.forall_mem_cons, ← checkIntent_ok_iff, ← ih, checkIntents]
    split
    · rename_i passes
      simp [passes]
    · rename_i refused
      exact ⟨fun passes => absurd passes refused, fun passes => absurd passes.1 refused⟩

/-- A submission is within the limits, its quantities and notionals as `size` measures them. -/
structure Respects (size : ℚ → ℚ) (limits : RiskLimits) (bucket : Bucket) (now : Nat)
    (intents : List OrderIntent) (resting : List RestingOrder) : Prop where
  qty : ∀ intent ∈ intents, ∀ limit, limits.maxOrderQty = some limit →
    size intent.qty.value ≤ limit.value
  notional : ∀ intent ∈ intents, ∀ limit price, limits.maxOrderNotional = some limit →
    intent.price = some price → size (price.value * intent.qty.value) ≤ limit.value
  openOrders : ∀ limit, limits.maxOpenOrders = some limit → resting.length + intents.length ≤ limit
  netQty : ∀ limit, limits.maxNetQtyPerSymbol = some limit →
    ∀ symbol ∈ (exposures intents resting).map Prod.fst,
      |totalOf symbol (exposures intents resting)| ≤ limit.value
  budget : ∀ limit, limits.maxOrdersPerMinute = some limit →
    intents.length * TOKENS_PER_ORDER ≤ (bucket.refill limit now).tokens

/-- Within the limits whatever the signs: what the limits are documented to say. -/
def Within := Respects fun value => |value|

/-- Within the limits as the gate compares them. -/
def Passes := Respects id

/-- What the gate compares as it stands: the quantities, the number of orders and the budget. -/
structure Clears (limits : RiskLimits) (bucket : Bucket) (now : Nat) (intents : List OrderIntent)
    (resting : List RestingOrder) : Prop where
  qty : ∀ intent ∈ intents, ∀ limit, limits.maxOrderQty = some limit → intent.qty.value ≤ limit.value
  openOrders : ∀ limit, limits.maxOpenOrders = some limit → resting.length + intents.length ≤ limit
  budget : ∀ limit, limits.maxOrdersPerMinute = some limit →
    intents.length * TOKENS_PER_ORDER ≤ (bucket.refill limit now).tokens

/-- The sizes themselves, without a round-off error, are within the limits on either side. -/
structure Documented (limits : RiskLimits) (intents : List OrderIntent) (resting : List RestingOrder) :
    Prop where
  qty : ∀ intent ∈ intents, ∀ limit, limits.maxOrderQty = some limit →
    -limit.value ≤ intent.qty.value
  notional : ∀ intent ∈ intents, ∀ limit price, limits.maxOrderNotional = some limit →
    intent.price = some price → |price.value * intent.qty.value| ≤ limit.value
  netQty : ∀ limit, limits.maxNetQtyPerSymbol = some limit →
    ∀ symbol ∈ (exposures intents resting).map Prod.fst,
      |totalOf symbol (exposures intents resting)| ≤ limit.value

variable {intents : List OrderIntent} {resting : List RestingOrder}

end Checks

section Order

variable {ops : DecimalOps} {limits : RiskLimits} {intents legs : List OrderIntent}
  {resting book : List RestingOrder}

theorem Clears.perm {bucket : Bucket} {now : Nat} (clears : Clears limits bucket now intents resting)
    (sameLegs : legs.Perm intents) (sameBook : book.Perm resting) : Clears limits bucket now legs book := by
  refine ⟨fun intent member => clears.qty intent (sameLegs.mem_iff.mp member), ?_, ?_⟩
  · rw [sameLegs.length_eq, sameBook.length_eq]
    exact clears.openOrders
  · rw [sameLegs.length_eq]
    exact clears.budget

end Order

end LongTrader.Risk
