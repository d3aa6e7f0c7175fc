import LongTrader.Risk.Gate

/-! The submission rate over whole runs of the gate. Between two measurements a bucket
gains at most what the clock allows, so what a window admits is bounded by a full
bucket and the refill of the window. -/

namespace LongTrader.Risk

/-- One call of `RiskGate::admit`; the instant is in nanoseconds. -/
structure Attempt where
  intents : List OrderIntent
  resting : Option (List RestingOrder)
  now : Nat

/-- The answer to one call and the bucket after it. A panic of the checks comes before
the bucket is locked. -/
def attempt (ops : DecimalOps) (limits : RiskLimits) (bucket : Bucket) (call : Attempt) :
    Option (Except RiskViolation Unit) × Bucket :=
  match admitIntents ops limits bucket call.intents call.resting call.now with
  | none => (none, bucket)
  | some (answer, after) => (some answer, after)

/-- The answers to a run of calls. -/
def answers (ops : DecimalOps) (limits : RiskLimits) :
    Bucket → List Attempt → List (Attempt × Option (Except RiskViolation Unit))
  | _, [] => []
  | bucket, call :: rest =>
    let result := attempt ops limits bucket call
    (call, result.1) :: answers ops limits result.2 rest

/-- The bucket after a run of calls. -/
def bucketAfter (ops : DecimalOps) (limits : RiskLimits) (bucket : Bucket)
    (calls : List Attempt) : Bucket :=
  calls.foldl (fun bucket call => (attempt ops limits bucket call).2) bucket

/-- How many of `orders` an answer lets through. -/
def granted (answer : Option (Except RiskViolation Unit)) (orders : Nat) : Nat :=
  match answer with
  | some (.ok ()) => orders
  | _ => 0

/-- The orders that an answered call let through. -/
def ordersAdmitted (answered : Attempt × Option (Except RiskViolation Unit)) : Nat :=
  granted answered.2 answered.1.intents.length

/-- Whether an instant lies in the window of `millis` milliseconds from `opens`. -/
def inWindow (opens millis now : Nat) : Bool := opens ≤ now && now ≤ opens + millis * 1000000

/-- The orders admitted in a window. -/
def admittedWithin (opens millis : Nat)
    (answered : List (Attempt × Option (Except RiskViolation Unit))) : Nat :=
  ((answered.filter fun entry => inWindow opens millis entry.1.now).map ordersAdmitted).sum

/-- The tokens of a full bucket. -/
def capacity (limit : Nat) : Nat := limit * TOKENS_PER_ORDER

section Consume

variable {limits : RiskLimits} {limit : Nat}

/-- What one call may do to the bucket: refill it by the elapsed time, never beyond its
capacity, and pay for the admitted orders from it. -/
structure Spends (limit now paid : Nat) (bucket after : Bucket) : Prop where
  bounded : bucket.tokens ≤ capacity limit → after.tokens + paid ≤ capacity limit
  refilled : bucket.last ≤ now → (after = bucket ∧ paid = 0) ∨ (after.last = now ∧
    after.tokens + paid ≤ bucket.tokens + (now - bucket.last) / 1000000 * limit)
  idle : now < bucket.last → after.last = bucket.last ∧ after.tokens + paid ≤ bucket.tokens

theorem spends_nothing (now : Nat) (bucket : Bucket) : Spends limit now 0 bucket bucket :=
  ⟨fun within => by simpa using within, fun _ => .inl ⟨rfl, rfl⟩, fun _ => ⟨rfl, by simp⟩⟩

/-- No cost is lost to saturation while the budget covers it. -/
theorem cost_exact {tokens orders : Nat} (small : limit < 2 ^ 32) (within : tokens ≤ capacity limit)
    (covers : min (min orders U128_MAX * TOKENS_PER_ORDER) U128_MAX ≤ tokens) :
    min (min orders U128_MAX * TOKENS_PER_ORDER) U128_MAX = orders * TOKENS_PER_ORDER := by
  unfold capacity TOKENS_PER_ORDER at within
  unfold U128_MAX TOKENS_PER_ORDER at covers ⊢
  omega

/-- The bucket as `consume` measures it. -/
def Bucket.refill (limit now : Nat) (bucket : Bucket) : Bucket :=
  if bucket.last ≤ now then
    ⟨min (min (bucket.tokens + (now - bucket.last) / 1000000 * limit) U128_MAX) (capacity limit), now⟩
  else bucket

theorem consume_eq (rate : limits.maxOrdersPerMinute = some limit) (bucket : Bucket)
    {orders cost : Nat} (costs : cost = min (min orders U128_MAX * TOKENS_PER_ORDER) U128_MAX)
    (now : Nat) :
    consume limits bucket orders now =
      if (bucket.refill limit now).tokens < cost then (.error (.rate limit), bucket.refill limit now)
      else (.ok (), ⟨(bucket.refill limit now).tokens - cost, (bucket.refill limit now).last⟩) := by
  subst costs
  simp only [consume, rate]
  rfl

theorem refill_spends (now : Nat) (bucket : Bucket) :
    Spends limit now 0 bucket (bucket.refill limit now) := by
  unfold Bucket.refill
  split
  · rename_i later
    refine ⟨fun _ => ?_, fun _ => .inr ⟨rfl, ?_⟩, fun early => by omega⟩
    · simp
    · simp only [Nat.add_zero]
      omega
  · rename_i early
    exact ⟨fun within => by simpa using within, fun later => absurd later early,
      fun _ => ⟨rfl, by simp⟩⟩

theorem Spends.pays {now paid : Nat} {bucket middle : Bucket}
    (spends : Spends limit now 0 bucket middle) (covered : paid ≤ middle.tokens)
    (measured : bucket.last ≤ now → middle.last = now) :
    Spends limit now paid bucket { middle with tokens := middle.tokens - paid } := by
  refine ⟨fun within => ?_, fun later => .inr ⟨measured later, ?_⟩, fun early => ?_⟩
  · have := spends.bounded within
    simp only
    omega
  · rcases spends.refilled later with ⟨same, _⟩ | ⟨_, gained⟩
    · subst same
      simp only
      omega
    · simp only
      omega
  · obtain ⟨last, less⟩ := spends.idle early
    refine ⟨last, ?_⟩
    simp only
    omega

theorem consume_spends (rate : limits.maxOrdersPerMinute = some limit) (small : limit < 2 ^ 32)
    {bucket : Bucket} (within : bucket.tokens ≤ capacity limit) (orders now : Nat) :
    Spends limit now (granted (some (consume limits bucket orders now).1) orders * TOKENS_PER_ORDER)
      bucket (consume limits bucket orders now).2 := by
  have refills := @refill_spends limit now bucket
  have exact := @cost_exact limit (bucket.refill limit now).tokens orders small (refills.bounded within)
  have consumed := @consume_eq limits limit rate bucket orders _ rfl now
  generalize min (min orders U128_MAX * TOKENS_PER_ORDER) U128_MAX = cost at exact consumed
  rw [consumed]
  split
  · simpa [granted] using refills
  · rename_i covers
    have admitted : granted (some (.ok ())) orders = orders := rfl
    obtain rfl := exact (Nat.le_of_not_lt covers)
    rw [admitted]
    refine refills.pays (Nat.le_of_not_lt covers) ?_
    intro later
    simp [Bucket.refill, later]

/-- A call that is refused leaves the bucket as it has measured it. -/
theorem consume_refused (rate : limits.maxOrdersPerMinute = some limit) {bucket : Bucket}
    {orders now : Nat} {violation : RiskViolation}
    (refused : (consume limits bucket orders now).1 = .error violation) :
    (consume limits bucket orders now).2 = bucket.refill limit now := by
  have consumed := @consume_eq limits limit rate bucket orders _ rfl now
  generalize min (min orders U128_MAX * TOKENS_PER_ORDER) U128_MAX = cost at consumed
  rw [consumed] at refused ⊢
  split at refused
  · rename_i short
    rw [if_pos short]
  · cases refused

/-- A call is let through if and only if the budget covers it. -/
theorem consume_ok_iff (rate : limits.maxOrdersPerMinute = some limit)
    (small : limit < 2 ^ 32) {bucket : Bucket} (within : bucket.tokens ≤ capacity limit)
    (orders now : Nat) :
    (consume limits bucket orders now).1 = .ok () ↔
      orders * TOKENS_PER_ORDER ≤ (bucket.refill limit now).tokens := by
  have bounded : (bucket.refill limit now).tokens ≤ capacity limit := by
    simpa using (refill_spends now bucket).bounded within
  rw [consume_eq rate bucket rfl now]
  split
  · rename_i short
    have saturated : min (min orders U128_MAX * TOKENS_PER_ORDER) U128_MAX ≤ orders * TOKENS_PER_ORDER :=
      (Nat.min_le_left _ _).trans (Nat.mul_le_mul_right _ (Nat.min_le_left _ _))
    simp only [reduceCtorEq, false_iff, Nat.not_le]
    omega
  · rename_i covers
    have exact := cost_exact small bounded (Nat.le_of_not_lt covers)
    simp only [true_iff]
    omega

end Consume

section Runs

variable {ops : DecimalOps} {limits : RiskLimits} {limit : Nat} {bucket : Bucket}

theorem attempt_spends (rate : limits.maxOrdersPerMinute = some limit) (small : limit < 2 ^ 32)
    (within : bucket.tokens ≤ capacity limit) (call : Attempt) :
    Spends limit call.now
      (ordersAdmitted (call, (attempt ops limits bucket call).1) * TOKENS_PER_ORDER) bucket
      (attempt ops limits bucket call).2 := by
  have nothing : Spends limit call.now (0 * TOKENS_PER_ORDER) bucket bucket := by
    rw [Nat.zero_mul]
    exact spends_nothing _ _
  unfold attempt admitIntents
  cases check ops limits call.intents call.resting with
  | none => exact nothing
  | some answer =>
    cases answer with
    | error violation => exact nothing
    | ok => exact consume_spends rate small within call.intents.length call.now

/-- The tokens of a bucket never exceed its capacity. -/
theorem bucketAfter_within (rate : limits.maxOrdersPerMinute = some limit) (small : limit < 2 ^ 32)
    (within : bucket.tokens ≤ capacity limit) (calls : List Attempt) :
    (bucketAfter ops limits bucket calls).tokens ≤ capacity limit := by
  induction calls generalizing bucket with
  | nil => exact within
  | cons call rest ih =>
    have bounded := (@attempt_spends ops limits limit bucket rate small within call).bounded within
    exact ih (Nat.le_of_add_right_le bounded)

/-- What was paid in the window so far and what is left: at most a full bucket and the
refill since the window opened. -/
def Budget (limit opens millis paid : Nat) (bucket : Bucket) : Prop :=
  (paid = 0 ∧ bucket.tokens ≤ capacity limit) ∨
    (opens ≤ bucket.last ∧ bucket.tokens ≤ capacity limit ∧ paid + bucket.tokens ≤
      capacity limit + (min bucket.last (opens + millis * 1000000) - opens) / 1000000 * limit)

theorem Budget.within {opens millis paid : Nat} (budget : Budget limit opens millis paid bucket) :
    bucket.tokens ≤ capacity limit := by
  rcases budget with ⟨_, within⟩ | ⟨_, within, _⟩
  · exact within
  · exact within

theorem Budget.bound {opens millis paid : Nat} (budget : Budget limit opens millis paid bucket) :
    paid ≤ capacity limit + millis * limit := by
  rcases budget with ⟨rfl, _⟩ | ⟨_, _, total⟩
  · exact Nat.zero_le _
  · have refill : (min bucket.last (opens + millis * 1000000) - opens) / 1000000 * limit ≤
        millis * limit := by
      apply Nat.mul_le_mul_right
      omega
    omega

/-- Refills of consecutive stretches add up to at most the refill of the whole. -/
theorem refills_add {first middle last : Nat} (earlier : first ≤ middle) (later : middle ≤ last) :
    (middle - first) / 1000000 * limit + (last - middle) / 1000000 * limit ≤
      (last - first) / 1000000 * limit := by
  rw [← Nat.add_mul]
  apply Nat.mul_le_mul_right
  omega

/-- A call in the window keeps the budget. -/
theorem Budget.spends {opens millis paid now cost : Nat} {after : Bucket}
    (budget : Budget limit opens millis paid bucket) (spends : Spends limit now cost bucket after)
    (inside : inWindow opens millis now = true) :
    Budget limit opens millis (paid + cost) after := by
  simp only [inWindow, Bool.and_eq_true, decide_eq_true_eq] at inside
  have bounded := spends.bounded budget.within
  rcases Nat.lt_or_ge now bucket.last with early | later
  · obtain ⟨same, less⟩ := spends.idle early
    refine .inr ⟨by omega, by omega, ?_⟩
    rw [same]
    rcases budget with ⟨rfl, within⟩ | ⟨_, _, total⟩
    · omega
    · omega
  · rcases spends.refilled later with ⟨rfl, rfl⟩ | ⟨measured, gained⟩
    · exact budget
    · refine .inr ⟨by omega, by omega, ?_⟩
      rcases budget with ⟨rfl, within⟩ | ⟨opened, _, total⟩
      · omega
      · have stretch := @refills_add limit opens bucket.last now opened later
        rw [Nat.min_eq_left (by omega)] at total
        rw [measured, Nat.min_eq_left inside.2]
        omega

/-- A call before the window keeps the budget. -/
theorem Budget.passes {opens millis paid now cost : Nat} {after : Bucket}
    (budget : Budget limit opens millis paid bucket) (spends : Spends limit now cost bucket after)
    (before : now < opens) : Budget limit opens millis paid after := by
  have bounded := spends.bounded budget.within
  rcases budget with ⟨rfl, _⟩ | ⟨opened, _, total⟩
  · exact .inl ⟨rfl, by omega⟩
  · obtain ⟨same, less⟩ := spends.idle (by omega)
    refine .inr ⟨by omega, by omega, ?_⟩
    rw [same]
    omega

theorem admittedWithin_cons (opens millis : Nat)
    (entry : Attempt × Option (Except RiskViolation Unit))
    (rest : List (Attempt × Option (Except RiskViolation Unit))) :
    admittedWithin opens millis (entry :: rest) =
      (if inWindow opens millis entry.1.now then ordersAdmitted entry else 0) +
        admittedWithin opens millis rest := by
  unfold admittedWithin
  rw [List.filter_cons]
  split
  · simp
  · simp

/-- Nothing is admitted in a window that has closed. -/
theorem admittedWithin_closed {opens millis : Nat} {calls : List Attempt}
    (closed : ∀ call ∈ calls, opens + millis * 1000000 < call.now) :
    admittedWithin opens millis (answers ops limits bucket calls) = 0 := by
  induction calls generalizing bucket with
  | nil => rfl
  | cons call rest ih =>
    have late := closed call (List.mem_cons_self ..)
    have outside : inWindow opens millis call.now = false := by
      simp only [inWindow, Bool.and_eq_false_iff, decide_eq_false_iff_not]
      omega
    rw [answers, admittedWithin_cons, outside,
      ih fun other member => closed other (List.mem_cons_of_mem _ member)]
    rfl

/-- What a run pays in a window is within the budget of the window. -/
theorem paid_within_budget (rate : limits.maxOrdersPerMinute = some limit) (small : limit < 2 ^ 32)
    {opens millis paid : Nat} {calls : List Attempt}
    (budget : Budget limit opens millis paid bucket)
    (ordered : calls.Pairwise fun first second => first.now ≤ second.now) :
    paid + admittedWithin opens millis (answers ops limits bucket calls) * TOKENS_PER_ORDER ≤
      capacity limit + millis * limit := by
  induction calls generalizing bucket paid with
  | nil => simpa [answers, admittedWithin] using budget.bound
  | cons call rest ih =>
    obtain ⟨later, ordered⟩ := List.pairwise_cons.mp ordered
    have spends := @attempt_spends ops limits limit bucket rate small budget.within call
    rw [answers, admittedWithin_cons]
    by_cases inside : inWindow opens millis call.now = true
    · have total := ih (budget.spends spends inside) ordered
      rw [if_pos inside, Nat.add_mul]
      omega
    · rw [if_neg inside, Nat.zero_add]
      rcases Nat.lt_or_ge call.now opens with before | opened
      · exact ih (budget.passes spends before) ordered
      · have closed : opens + millis * 1000000 < call.now := by
          simp only [inWindow, Bool.and_eq_true, decide_eq_true_eq] at inside
          omega
        rw [admittedWithin_closed fun other member => closed.trans_le (later other member)]
        simpa using budget.bound

/-- Over every window of a run the gate admits at most a full bucket and the refill of
the window, and the bucket never holds more than its capacity. -/
theorem rate_bound (rate : limits.maxOrdersPerMinute = some limit) (small : limit < 2 ^ 32)
    (created : Nat) {calls : List Attempt}
    (ordered : calls.Pairwise fun first second => first.now ≤ second.now) (opens millis : Nat) :
    admittedWithin opens millis (answers ops limits (.full limits created) calls) ≤
        limit + limit * millis / 60000 ∧
      ∀ earlier later, calls = earlier ++ later →
        (bucketAfter ops limits (.full limits created) earlier).tokens ≤ capacity limit := by
  have full : (Bucket.full limits created).tokens ≤ capacity limit := by
    simp [Bucket.full, rate, capacity]
  constructor
  · have total := @paid_within_budget ops limits limit (.full limits created) rate small opens millis
      0 calls (.inl ⟨rfl, full⟩) ordered
    unfold capacity TOKENS_PER_ORDER at total
    rw [Nat.mul_comm millis limit] at total
    omega
  · intro earlier later _
    exact bucketAfter_within rate small full earlier

/-- One order a minute: the one after half a minute is refused. -/
theorem rate_bound_one_per_minute :
    let limits : RiskLimits := ⟨none, none, some 1, none, none⟩
    let order (now : Nat) : Attempt := ⟨[⟨"BTC/USDT", true, ⟨1, 0⟩, none⟩], none, now⟩
    let answered := answers decimal96 limits (.full limits 0) [order 0, order 30000000000, order 60000000000]
    answered.map ordersAdmitted = [1, 0, 1] ∧
      admittedWithin 0 60000 answered ≤ 1 + 1 * 60000 / 60000 := by
  intro limits order answered
  refine ⟨by decide, ?_⟩
  exact (@rate_bound decimal96 limits 1 rfl (by decide) 0 _ (by simp [order]) 0 60000).1

end Runs

end LongTrader.Risk
