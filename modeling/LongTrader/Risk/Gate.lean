import LongTrader.Decimal
import Mathlib.Algebra.BigOperators.Group.List.Basic
import Mathlib.Tactic.Linarith

/-! The pre-trade risk gate: submissions measured against the configured limits. A
computation that may hit an overflowing decimal operator answers `none` for its panic. -/

namespace LongTrader.Risk

/-- Sign a quantity: buy is positive, sell is negative. -/
def signed (isBuy : Bool) (qty : Decimal) : Decimal := if isBuy then qty else qty.neg

structure OrderIntent where
  symbol : String
  isBuy : Bool
  qty : Decimal
  price : Option Decimal
  deriving DecidableEq, Repr

def OrderIntent.signedQty (intent : OrderIntent) : Decimal := signed intent.isBuy intent.qty

/-- `price * qty`, absent for an order with no price. -/
def OrderIntent.notional (ops : DecimalOps) (intent : OrderIntent) : Option (Option Decimal) :=
  match intent.price with
  | none => some none
  | some price => (ops.mul price intent.qty).map some

/-- A resting order as the venue reports it. -/
structure RestingOrder where
  symbol : String
  isBuy : Bool
  qty : Decimal
  deriving DecidableEq, Repr

def RestingOrder.signedQty (resting : RestingOrder) : Decimal := signed resting.isBuy resting.qty

structure RiskLimits where
  maxOrderQty : Option Decimal
  maxOrderNotional : Option Decimal
  maxOrdersPerMinute : Option Nat
  maxOpenOrders : Option Nat
  maxNetQtyPerSymbol : Option Decimal
  deriving DecidableEq, Repr

/-- Whether a decision needs the venue's resting orders. -/
def RiskLimits.needsBook (limits : RiskLimits) : Bool :=
  limits.maxOpenOrders.isSome || limits.maxNetQtyPerSymbol.isSome

/-- Why a submission was refused. -/
inductive RiskViolation where
  | bookUnavailable
  | orderQty (symbol : String) (actual limit : Decimal)
  | orderNotional (symbol : String) (actual limit : Decimal)
  | rate (limit : Nat)
  | openOrders (actual limit : Nat)
  | netQty (symbol : String) (actual limit : Decimal)
  deriving DecidableEq, Repr

def RiskViolation.display (ops : DecimalOps) : RiskViolation → String
  | .bookUnavailable => "risk limits need the venue's resting orders, which were not read"
  | .orderQty symbol actual limit =>
    "order quantity " ++ ops.render actual ++ " on " ++ symbol ++ " exceeds the limit " ++
      ops.render limit
  | .orderNotional symbol actual limit =>
    "order notional " ++ ops.render actual ++ " on " ++ symbol ++ " exceeds the limit " ++
      ops.render limit
  | .rate limit => "submission rate exceeds " ++ toString limit ++ " orders/minute"
  | .openOrders actual limit =>
    "open orders " ++ toString actual ++ " exceed the limit " ++ toString limit
  | .netQty symbol actual limit =>
    "net quantity " ++ ops.render actual ++ " on " ++ symbol ++ " exceeds the limit " ++
      ops.render limit

/-- Token-bucket unit: one order costs this many tokens. -/
def TOKENS_PER_ORDER : Nat := 60000

/-- `u128::MAX`, where token arithmetic saturates. -/
def U128_MAX : Nat := 2 ^ 128 - 1

/-- The submission budget left and when it was last measured, in nanoseconds. -/
structure Bucket where
  tokens : Nat
  last : Nat
  deriving DecidableEq, Repr

/-- The bucket of `RiskGate::new`. -/
def Bucket.full (limits : RiskLimits) (now : Nat) : Bucket :=
  ⟨limits.maxOrdersPerMinute.getD 0 * TOKENS_PER_ORDER, now⟩

/-- `RiskGate::consume`, the critical section of the bucket's lock. -/
def consume (limits : RiskLimits) (bucket : Bucket) (orders now : Nat) :
    Except RiskViolation Unit × Bucket :=
  match limits.maxOrdersPerMinute with
  | none => (.ok (), bucket)
  | some limit =>
    let refilled : Bucket :=
      if bucket.last ≤ now then
        let refill := (now - bucket.last) / 1000000 * limit
        ⟨min (min (bucket.tokens + refill) U128_MAX) (limit * TOKENS_PER_ORDER), now⟩
      else bucket
    let cost := min (min orders U128_MAX * TOKENS_PER_ORDER) U128_MAX
    if refilled.tokens < cost then (.error (.rate limit), refilled)
    else (.ok (), { refilled with tokens := refilled.tokens - cost })

/-- The size checks of one intent. The notional is computed whether or not it is
limited. -/
def checkIntent (ops : DecimalOps) (limits : RiskLimits) (intent : OrderIntent) :
    Option (Except RiskViolation Unit) :=
  match limits.maxOrderQty.filter fun limit => limit.lt intent.qty with
  | some limit => some (.error (.orderQty intent.symbol intent.qty limit))
  | none => match intent.notional ops with
    | none => none
    | some none => some (.ok ())
    | some (some actual) =>
      match limits.maxOrderNotional.filter fun limit => limit.lt actual with
      | some limit => some (.error (.orderNotional intent.symbol actual limit))
      | none => some (.ok ())

def checkIntents (ops : DecimalOps) (limits : RiskLimits) :
    List OrderIntent → Option (Except RiskViolation Unit)
  | [] => some (.ok ())
  | intent :: rest => match checkIntent ops limits intent with
    | some (.ok ()) => checkIntents ops limits rest
    | other => other

/-- Net quantities by symbol, in the order of a `BTreeMap`. -/
abbrev Net := Std.TreeMap String Decimal

/-- `*net.entry(symbol).or_insert(Decimal::ZERO) += qty` over a list. -/
def tally (ops : DecimalOps) (net : Net) : List (String × Decimal) → Option Net
  | [] => some net
  | (symbol, qty) :: rest => match ops.add (net.getD symbol .zero) qty with
    | none => none
    | some total => tally ops (net.insert symbol total) rest

/-- The quantities listed under a symbol, added up in their order. -/
def sumOf (ops : DecimalOps) (symbol : String) (total : Decimal) :
    List (String × Decimal) → Option Decimal
  | [] => some total
  | (key, qty) :: rest =>
    if key = symbol then match ops.add total qty with
      | none => none
      | some total => sumOf ops symbol total rest
    else sumOf ops symbol total rest

/-- What is netted: the resting orders, then the intents. -/
def exposures (intents : List OrderIntent) (resting : List RestingOrder) :
    List (String × Decimal) :=
  resting.map (fun order => (order.symbol, order.signedQty)) ++
    intents.map (fun intent => (intent.symbol, intent.signedQty))

/-- The net quantity of each symbol over the resting orders and the intents. -/
def netQty (ops : DecimalOps) (intents : List OrderIntent) (resting : List RestingOrder) :
    Option Net :=
  tally ops ∅ (exposures intents resting)

/-- The checks against the venue's book. -/
def checkBook (ops : DecimalOps) (limits : RiskLimits) (intents : List OrderIntent)
    (resting : List RestingOrder) : Option (Except RiskViolation Unit) :=
  let actual := resting.length + intents.length
  match limits.maxOpenOrders.filter (· < actual) with
  | some limit => some (.error (.openOrders actual limit))
  | none => match limits.maxNetQtyPerSymbol with
    | none => some (.ok ())
    | some limit => match netQty ops intents resting with
      | none => none
      | some net =>
        match net.toList.find? fun entry => limit.lt entry.2.abs with
        | some (symbol, actual) => some (.error (.netQty symbol actual limit))
        | none => some (.ok ())

/-- What `RiskGate::admit` decides before it spends budget. -/
def check (ops : DecimalOps) (limits : RiskLimits) (intents : List OrderIntent)
    (resting : Option (List RestingOrder)) : Option (Except RiskViolation Unit) :=
  match checkIntents ops limits intents with
  | some (.ok ()) =>
    if limits.needsBook then match resting with
      | none => some (.error .bookUnavailable)
      | some resting => checkBook ops limits intents resting
    else some (.ok ())
  | other => other

/-- `RiskGate::admit`, with the bucket after it. -/
def admitIntents (ops : DecimalOps) (limits : RiskLimits) (bucket : Bucket) (intents : List OrderIntent)
    (resting : Option (List RestingOrder)) (now : Nat) :
    Option (Except RiskViolation Unit × Bucket) :=
  match check ops limits intents resting with
  | none => none
  | some (.error violation) => some (.error violation, bucket)
  | some (.ok ()) => some (consume limits bucket intents.length now)

/-- The total of the quantities listed under a symbol. -/
def totalOf (symbol : String) (entries : List (String × Decimal)) : ℚ :=
  ((entries.filter (·.1 = symbol)).map (·.2.value)).sum

section Tally

variable {ops : DecimalOps}

/-- The net quantities overflow nowhere when the sum of no symbol does. -/
theorem tally_isSome_iff {net : Net} {entries : List (String × Decimal)} :
    (tally ops net entries).isSome ↔
      ∀ symbol, (sumOf ops symbol (net.getD symbol .zero) entries).isSome := by
  induction entries generalizing net with
  | nil => simp [tally, sumOf]
  | cons entry rest ih =>
    obtain ⟨key, qty⟩ := entry
    rw [tally]
    cases added : ops.add (net.getD key .zero) qty with
    | none =>
      refine iff_of_false (by simp) fun each => ?_
      have own := each key
      rw [sumOf, if_pos rfl, added] at own
      cases own
    | some total =>
      rw [ih]
      refine forall_congr' fun symbol => ?_
      rw [Std.TreeMap.getD_insert, sumOf]
      by_cases same : key = symbol
      · subst same
        simp [added]
      · simp [same]

end Tally

section Admitted

variable {ops : DecimalOps} {limits : RiskLimits} {intents : List OrderIntent}
  {resting : List RestingOrder}

end Admitted

end LongTrader.Risk
