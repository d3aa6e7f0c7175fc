import LongTrader.Risk.Decision

/-! Whether a submission can take its task down. The operators of `rust_decimal` panic on overflow,
and so does the arithmetic on tokens; a panic while the bucket is locked poisons the lock, and every
later submission panics on it. -/

namespace LongTrader.Risk

/-- `std::time::Instant` in nanoseconds: seconds are a `u64`. -/
abbrev Instant := { nanos : Nat // nanos < 2 ^ 64 * 1000000000 }

/-- A result of `u128` arithmetic, whose overflow is a panic. -/
def u128 (value : Nat) : Option Nat := if value ≤ U128_MAX then some value else none

/-- `RiskGate`: its bucket, and whether a panic has poisoned the lock of it. -/
structure RiskGate where
  limits : RiskLimits
  bucket : Bucket
  poisoned : Bool

namespace RiskGate

/-- `RiskGate::new`. -/
def new (limits : RiskLimits) (now : Instant) : RiskGate := ⟨limits, .full limits now, false⟩

/-- The measurement of the bucket under its lock. -/
def refill (limit capacity : Nat) (bucket : Bucket) (now : Instant) : Option Bucket :=
  if bucket.last ≤ now then
    match u128 ((now - bucket.last) / 1000000 * limit) with
    | none => none
    | some refill => some ⟨min (min (bucket.tokens + refill) U128_MAX) capacity, now⟩
  else some bucket

/-- The payment under the lock. -/
def spend (limit : Nat) (bucket : Bucket) (orders : Nat) :
    Option (Except RiskViolation Unit × Bucket) :=
  let cost := min (min orders U128_MAX * TOKENS_PER_ORDER) U128_MAX
  if bucket.tokens < cost then some (.error (.rate limit), bucket)
  else if cost ≤ bucket.tokens then some (.ok (), { bucket with tokens := bucket.tokens - cost })
  else none

/-- `RiskGate::consume`; no answer is a panic. -/
def consume (gate : RiskGate) (orders : Nat) (now : Instant) :
    Option (Except RiskViolation Unit) × RiskGate :=
  match gate.limits.maxOrdersPerMinute with
  | none => (some (.ok ()), gate)
  | some limit => match u128 (limit * TOKENS_PER_ORDER) with
    | none => (none, gate)
    | some capacity =>
      -- `expect` panics on a poisoned lock.
      if gate.poisoned then (none, gate)
      else match refill limit capacity gate.bucket now with
        | none => (none, { gate with poisoned := true })
        | some measured => match spend limit measured orders with
          | none => (none, { gate with bucket := measured, poisoned := true })
          | some (answer, bucket) => (some answer, { gate with bucket := bucket })

/-- `RiskGate::admit`. -/
def admitIntents (ops : DecimalOps) (gate : RiskGate) (intents : List OrderIntent)
    (resting : Option (List RestingOrder)) (now : Instant) :
    Option (Except RiskViolation Unit) × RiskGate :=
  match check ops gate.limits intents resting with
  | none => (none, gate)
  | some (.error violation) => (some (.error violation), gate)
  | some (.ok ()) => gate.consume intents.length now

end RiskGate

/-- One submission: its order requests, what the venue answers when its book is read, and the
instant of the decision. -/
structure Submission where
  orders : List OrderRequest
  book : Except PortError (List Order)
  now : Instant

/-- The book as `RiskGateway::admit` measures it. -/
def Submission.resting (ops : DecimalOps) (limits : RiskLimits) (submission : Submission) :
    Except PortError (Option (List RestingOrder)) :=
  if limits.needsBook then match submission.book with
    | .error error => .error error
    | .ok orders => (collect (restingOf ops) orders).map some
  else .ok none

/-- `RiskGateway::admit` of the decoded requests. -/
def RiskGate.submit (ops : DecimalOps) (gate : RiskGate) (submission : Submission) :
    Option (Except PortError Unit) × RiskGate :=
  match collect (intentOf ops) submission.orders with
  | .error error => (some (.error error), gate)
  | .ok intents => match submission.resting ops gate.limits with
    | .error error => (some (.error error), gate)
    | .ok resting => match gate.admitIntents ops intents resting submission.now with
      | (answer, gate) => (answer.map fun answer => answer.mapError fun violation =>
          .invalidArgument (violation.display ops), gate)

/-- What the gate computes of a submission before it decides is within the range of a decimal: the
notional of each intent up to the first that is refused, and, where the net limit is reached, the
signed quantities of each symbol added up, those of the book first. -/
structure InRange (ops : DecimalOps) (limits : RiskLimits) (intents : List OrderIntent)
    (resting : Option (List RestingOrder)) : Prop where
  products : ∀ earlier intent later, intents = earlier ++ intent :: later →
    (∀ passed ∈ earlier, passed.Passes ops limits) →
    (∀ limit, limits.maxOrderQty = some limit → intent.qty.value ≤ limit.value) →
    ∀ price, intent.price = some price → (ops.mul price intent.qty).isSome
  sums : (∀ intent ∈ intents, intent.Passes ops limits) →
    ∀ book, resting = some book → limits.maxNetQtyPerSymbol.isSome →
    (∀ limit, limits.maxOpenOrders = some limit → book.length + intents.length ≤ limit) →
    ∀ symbol, (sumOf ops symbol .zero (exposures intents book)).isSome

/-- A submission whose requests and whose book decode, if they do, to what is in range. -/
def Submission.InRange (ops : DecimalOps) (limits : RiskLimits) (submission : Submission) : Prop :=
  ∀ intents resting, collect (intentOf ops) submission.orders = .ok intents →
    submission.resting ops limits = .ok resting → Risk.InRange ops limits intents resting

section Computing

variable {ops : DecimalOps} {limits : RiskLimits}

theorem checkIntent_isSome_iff {intent : OrderIntent} :
    (checkIntent ops limits intent).isSome ↔
      ((∀ limit, limits.maxOrderQty = some limit → intent.qty.value ≤ limit.value) →
        ∀ price, intent.price = some price → (ops.mul price intent.qty).isSome) := by
  unfold checkIntent
  rw [← filter_lt_eq_none_iff]
  cases limits.maxOrderQty.filter fun limit => limit.lt intent.qty with
  | some limit => simp
  | none =>
    cases priced : intent.price with
    | none => simp [OrderIntent.notional, priced]
    | some price =>
      cases multiplied : ops.mul price intent.qty with
      | none => simp [OrderIntent.notional, priced, multiplied]
      | some total =>
        simp only [OrderIntent.notional, priced, multiplied, Option.map_some]
        split <;> simp [multiplied]

theorem checkIntents_isSome_iff {intents : List OrderIntent} :
    (checkIntents ops limits intents).isSome ↔
      ∀ earlier intent later, intents = earlier ++ intent :: later →
        (∀ passed ∈ earlier, passed.Passes ops limits) → (checkIntent ops limits intent).isSome := by
  induction intents with
  | nil =>
    refine iff_of_true rfl fun earlier intent later cut => ?_
    exact absurd cut (by simp)
  | cons first rest ih =>
    have passes := @checkIntent_ok_iff ops limits first
    constructor
    · rintro answers (_ | ⟨head, earlier⟩) intent later cut before
      · obtain ⟨rfl, rfl⟩ := List.cons.inj cut
        rw [checkIntents] at answers
        split at answers
        · rename_i passed
          simp [passed]
        · exact answers
      · obtain ⟨rfl, rfl⟩ := List.cons.inj cut
        rw [List.forall_mem_cons, ← passes] at before
        rw [checkIntents, before.1] at answers
        exact ih.mp answers earlier intent later rfl before.2
    · intro each
      have here := each [] first rest rfl (by simp)
      rw [checkIntents]
      split
      · rename_i passed
        apply ih.mpr
        intro earlier intent later cut before
        apply each (first :: earlier) intent later (by rw [cut, List.cons_append])
        exact List.forall_mem_cons.mpr ⟨passes.mp passed, before⟩
      · exact here

theorem checkBook_isSome_iff {intents : List OrderIntent} {resting : List RestingOrder} :
    (checkBook ops limits intents resting).isSome ↔
      (limits.maxNetQtyPerSymbol.isSome →
        (∀ limit, limits.maxOpenOrders = some limit → resting.length + intents.length ≤ limit) →
        ∀ symbol, (sumOf ops symbol .zero (exposures intents resting)).isSome) := by
  have crowded : limits.maxOpenOrders.filter (· < resting.length + intents.length) = none ↔
      ∀ limit, limits.maxOpenOrders = some limit → resting.length + intents.length ≤ limit := by
    cases limits.maxOpenOrders with
    | none => simp
    | some limit => simp
  have sums := @tally_isSome_iff ops ∅ (exposures intents resting)
  simp only [Std.TreeMap.getD_emptyc] at sums
  simp only [checkBook]
  rw [← crowded, ← sums]
  split
  · rename_i exceeded
    simp [exceeded]
  · rename_i room
    cases limits.maxNetQtyPerSymbol with
    | none => simp
    | some limit =>
      simp only [netQty]
      cases tally ops ∅ (exposures intents resting) with
      | none => simp [room]
      | some net =>
        dsimp only
        split <;> simp

/-- The gate comes to a decision exactly on what is in range. -/
theorem check_isSome_iff {intents : List OrderIntent} {resting : Option (List RestingOrder)} :
    (check ops limits intents resting).isSome ↔ InRange ops limits intents resting := by
  have products : (checkIntents ops limits intents).isSome ↔
      ∀ earlier intent later, intents = earlier ++ intent :: later →
        (∀ passed ∈ earlier, passed.Passes ops limits) →
        (∀ limit, limits.maxOrderQty = some limit → intent.qty.value ≤ limit.value) →
        ∀ price, intent.price = some price → (ops.mul price intent.qty).isSome := by
    simp only [checkIntents_isSome_iff, checkIntent_isSome_iff]
  have passes := @checkIntents_ok_iff ops limits intents
  have decides : (check ops limits intents resting).isSome ↔
      (checkIntents ops limits intents).isSome ∧
        (checkIntents ops limits intents = some (.ok ()) → ∀ book, resting = some book →
          limits.needsBook = true → (checkBook ops limits intents book).isSome) := by
    unfold check
    split
    · rename_i passed
      rw [passed]
      cases needed : limits.needsBook with
      | false => simp
      | true =>
        cases resting with
        | none => simp
        | some book => simp
    · rename_i refused
      exact ⟨fun answers => ⟨answers, fun passed => absurd passed refused⟩, fun both => both.1⟩
  rw [decides, products, passes]
  constructor
  · rintro ⟨products, book⟩
    refine ⟨products, fun passed given read limited room => ?_⟩
    have needed : limits.needsBook = true := by simp [RiskLimits.needsBook, limited]
    exact checkBook_isSome_iff.mp (book passed given read needed) limited room
  · intro inRange
    refine ⟨inRange.products, fun passed given read _ => ?_⟩
    exact checkBook_isSome_iff.mpr fun limited room => inRange.sums passed given read limited room

end Computing

namespace RiskGate

variable {ops : DecimalOps}

/-- What holds of every gate that submissions leave behind. -/
structure Sound (gate : RiskGate) : Prop where
  small : ∀ limit, gate.limits.maxOrdersPerMinute = some limit → limit < 2 ^ 32
  unpoisoned : gate.poisoned = false

/-- A `u64` of seconds times a `u32` of orders is far from a `u128`. -/
theorem refill_eq {limit : Nat} (small : limit < 2 ^ 32) (bucket : Bucket) (now : Instant) :
    refill limit (capacity limit) bucket now = some (bucket.refill limit now) := by
  have early := now.property
  have elapsed : (now.val - bucket.last) / 1000000 ≤ 2 ^ 64 * 1000 := by omega
  have product : (now.val - bucket.last) / 1000000 * limit ≤ U128_MAX := by
    calc (now.val - bucket.last) / 1000000 * limit
        ≤ 2 ^ 64 * 1000 * 2 ^ 32 := Nat.mul_le_mul elapsed small.le
      _ ≤ U128_MAX := by decide
  have fits : u128 ((now.val - bucket.last) / 1000000 * limit) =
      some ((now.val - bucket.last) / 1000000 * limit) := if_pos product
  simp only [refill, Bucket.refill, fits]
  split
  · rfl
  · rfl

theorem spend_eq (limit : Nat) (bucket : Bucket) {orders cost : Nat}
    (costs : cost = min (min orders U128_MAX * TOKENS_PER_ORDER) U128_MAX) :
    spend limit bucket orders =
      if bucket.tokens < cost then some (.error (.rate limit), bucket)
      else some (.ok (), ⟨bucket.tokens - cost, bucket.last⟩) := by
  subst costs
  unfold spend
  dsimp only
  split
  · rfl
  · rename_i covered
    rw [if_pos (Nat.le_of_not_lt covered)]

/-- Nothing panics under the lock, so a gate that is not poisoned spends as the one without a
lock does. -/
theorem consume_eq {gate : RiskGate} (sound : gate.Sound) (orders : Nat) (now : Instant) :
    gate.consume orders now =
      (some (Risk.consume gate.limits gate.bucket orders now).1,
        { gate with bucket := (Risk.consume gate.limits gate.bucket orders now).2 }) := by
  obtain ⟨small, unpoisoned⟩ := sound
  unfold consume
  cases rate : gate.limits.maxOrdersPerMinute with
  | none => simp [Risk.consume, rate]
  | some limit =>
    have limited := small limit rate
    have full : u128 (limit * TOKENS_PER_ORDER) = some (capacity limit) := by
      apply if_pos
      unfold TOKENS_PER_ORDER U128_MAX
      omega
    obtain ⟨cost, costs⟩ : ∃ cost, cost = min (min orders U128_MAX * TOKENS_PER_ORDER) U128_MAX :=
      ⟨_, rfl⟩
    rw [Risk.consume_eq rate gate.bucket costs now]
    simp only [full, unpoisoned, Bool.false_eq_true, if_false, refill_eq limited,
      spend_eq limit _ costs]
    by_cases short : (gate.bucket.refill limit now).tokens < cost
    · simp only [if_pos short]
    · simp only [if_neg short]

theorem admitIntents_sound {gate : RiskGate} (sound : gate.Sound) (intents : List OrderIntent)
    (resting : Option (List RestingOrder)) (now : Instant) :
    ((gate.admitIntents ops intents resting now).1.isSome ↔ InRange ops gate.limits intents resting) ∧
      (gate.admitIntents ops intents resting now).2.limits = gate.limits ∧
      (gate.admitIntents ops intents resting now).2.poisoned = false := by
  rw [← check_isSome_iff]
  unfold admitIntents
  split
  · rename_i panics
    simp [panics, sound.unpoisoned]
  · rename_i violation refused
    simp [refused, sound.unpoisoned]
  · rename_i passes
    simp [passes, consume_eq sound, sound.unpoisoned]

theorem submit_sound {gate : RiskGate} (sound : gate.Sound) (submission : Submission) :
    ((gate.submit ops submission).1.isSome ↔ submission.InRange ops gate.limits) ∧
      (gate.submit ops submission).2.limits = gate.limits ∧
      (gate.submit ops submission).2.poisoned = false := by
  unfold submit Submission.InRange
  cases collect (intentOf ops) submission.orders with
  | error error => simp [sound.unpoisoned]
  | ok intents =>
    cases submission.resting ops gate.limits with
    | error error => simp [sound.unpoisoned]
    | ok resting =>
      obtain ⟨answers, kept⟩ := @admitIntents_sound ops gate sound intents resting submission.now
      simpa [answers] using kept

/-- The gate after a run of submissions, in the order in which they take its lock. -/
def after (ops : DecimalOps) (gate : RiskGate) (run : List Submission) : RiskGate :=
  run.foldl (fun gate submission => (gate.submit ops submission).2) gate

theorem after_sound {gate : RiskGate} (sound : gate.Sound) (run : List Submission) :
    (gate.after ops run).limits = gate.limits ∧ (gate.after ops run).poisoned = false := by
  induction run generalizing gate with
  | nil => exact ⟨rfl, sound.unpoisoned⟩
  | cons submission rest ih =>
    obtain ⟨_, limits, unpoisoned⟩ := @submit_sound ops gate sound submission
    have kept : (gate.submit ops submission).2.Sound := by
      refine ⟨?_, unpoisoned⟩
      rw [limits]
      exact sound.small
    obtain ⟨limitsAfter, unpoisonedAfter⟩ := ih kept
    exact ⟨limitsAfter.trans limits, unpoisonedAfter⟩

end RiskGate

/-- After any run of submissions the lock of the gate is not poisoned, and the gate answers the
next submission exactly when what it computes of it is in range. -/
theorem submission_answers_iff (ops : DecimalOps) (limits : RiskLimits)
    (small : ∀ limit, limits.maxOrdersPerMinute = some limit → limit < 2 ^ 32) (created : Instant)
    (run : List Submission) (submission : Submission) :
    ((RiskGate.new limits created).after ops run).poisoned = false ∧
      ((((RiskGate.new limits created).after ops run).submit ops submission).1.isSome ↔
        submission.InRange ops limits) := by
  have sound : (RiskGate.new limits created).Sound := ⟨small, rfl⟩
  obtain ⟨limitsAfter, unpoisoned⟩ := @RiskGate.after_sound ops _ sound run
  have soundAfter : ((RiskGate.new limits created).after ops run).Sound := by
    refine ⟨?_, unpoisoned⟩
    rw [limitsAfter]
    exact small
  obtain ⟨answers, _⟩ := @RiskGate.submit_sound ops _ soundAfter submission
  rw [limitsAfter] at answers
  exact ⟨unpoisoned, answers⟩

/-- A buy of one coin at thirty thousand, at most one a minute. -/
theorem submission_answers_one :
    let limits : RiskLimits := ⟨none, none, some 1, none, none⟩
    let order : OrderRequest := ⟨"", "BTC/USDT", .buy, some "1", some "30000"⟩
    let submission : Submission := ⟨[order], .ok [], ⟨0, by decide⟩⟩
    (((RiskGate.new limits ⟨0, by decide⟩).after decimal96 [submission]).submit decimal96
      submission).1.isSome := by
  intro limits order submission
  refine (submission_answers_iff decimal96 limits ?_ ⟨0, by decide⟩ [submission] submission).2.mpr ?_
  · rintro limit ⟨⟩
    decide
  · intro intents resting decoded _
    have same : intents = [⟨"BTC/USDT", true, ⟨1, 0⟩, some ⟨30000, 0⟩⟩] := by
      have computed : collect (intentOf decimal96) submission.orders =
          .ok [⟨"BTC/USDT", true, ⟨1, 0⟩, some ⟨30000, 0⟩⟩] := by decide
      exact Except.ok.inj (decoded.symm.trans computed)
    subst same
    exact check_isSome_iff.mp rfl

/-- Ten coins at the largest decimal there is: the notional overflows although no limit is on it. -/
theorem largest_price_panics :
    let limits : RiskLimits := ⟨none, none, some 1, none, none⟩
    let order : OrderRequest :=
      ⟨"", "BTC/USDT", .buy, some "10", some "79228162514264337593543950335"⟩
    let submission : Submission := ⟨[order], .ok [], ⟨0, by decide⟩⟩
    (collect (intentOf decimal96) submission.orders).isOk ∧
      ((RiskGate.new limits ⟨0, by decide⟩).submit decimal96 submission).1 = none := by
  decide

end LongTrader.Risk
