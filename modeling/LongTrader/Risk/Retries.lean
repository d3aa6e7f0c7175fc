import LongTrader.Risk.Rate
import LongTrader.Runs

/-! What a refused call costs. A refused call measures the bucket, and the fraction of a millisecond
that it leaves unpaid is lost to the calls after it. -/

namespace LongTrader.Risk

/-- A call of a run, and whether it is an extra one. -/
abbrev Marked := Attempt × Bool

/-- A run without its extra calls. -/
def kept (run : List Marked) : List Attempt := (run.filter fun entry => !entry.2).map Prod.fst

/-- The answers that the calls which are not extra get among the others. -/
def keptAnswers (ops : DecimalOps) (limits : RiskLimits) :
    Bucket → List Marked → List (Attempt × Option (Except RiskViolation Unit))
  | _, [] => []
  | bucket, (call, extra) :: rest =>
    let result := attempt ops limits bucket call
    let others := keptAnswers ops limits result.2 rest
    if extra then others else (call, result.1) :: others

/-- Measuring the bucket at `now` loses nothing: no fraction of a millisecond is left over, or there
is no more to gain. -/
def Lossless (limit now : Nat) (bucket : Bucket) : Prop :=
  limit = 0 ∨ (now - bucket.last) % 1000000 = 0 ∨
    capacity limit ≤ bucket.tokens + (now - bucket.last) / 1000000 * limit

section Measure

variable {limit now later : Nat} {bucket : Bucket}

theorem refill_eq (small : limit < 2 ^ 32) (elapsed : bucket.last ≤ now) :
    bucket.refill limit now =
      ⟨min (bucket.tokens + (now - bucket.last) / 1000000 * limit) (capacity limit), now⟩ := by
  have bounded : capacity limit ≤ U128_MAX := by
    unfold capacity TOKENS_PER_ORDER U128_MAX
    omega
  rw [Bucket.refill, if_pos elapsed, Nat.min_assoc, Nat.min_eq_right bounded]

/-- A measurement that loses nothing is invisible to the next one. -/
theorem Lossless.refill_refill (lossless : Lossless limit now bucket) (small : limit < 2 ^ 32)
    (ordered : now ≤ later) :
    (bucket.refill limit now).refill limit later = bucket.refill limit later := by
  rcases Nat.lt_or_ge now bucket.last with early | elapsed
  · rw [Bucket.refill.eq_1 limit now, if_neg (Nat.not_le_of_lt early)]
  · have measured := refill_eq small elapsed
    rw [refill_eq small (elapsed.trans ordered), measured, refill_eq small ordered]
    simp only [Bucket.mk.injEq, and_true]
    rcases lossless with rfl | whole | full
    · simp [capacity]
    · have split : (later - bucket.last) / 1000000 =
          (now - bucket.last) / 1000000 + (later - now) / 1000000 := by omega
      rw [split, Nat.add_mul]
      omega
    · have more : (now - bucket.last) / 1000000 * limit ≤ (later - bucket.last) / 1000000 * limit := by
        apply Nat.mul_le_mul_right
        omega
      omega

/-- A measurement that loses something is felt by some batch after it. -/
theorem exists_felt {limits : RiskLimits} (rate : limits.maxOrdersPerMinute = some limit)
    (small : limit < 2 ^ 32) (within : bucket.tokens ≤ capacity limit)
    (loses : ¬ Lossless limit now bucket) :
    ∃ orders later, now ≤ later ∧
      (consume limits bucket orders later).1 = .ok () ∧
      (consume limits (bucket.refill limit now) orders later).1 ≠ .ok () := by
  obtain ⟨positive, fraction, short⟩ : limit ≠ 0 ∧ (now - bucket.last) % 1000000 ≠ 0 ∧
      bucket.tokens + (now - bucket.last) / 1000000 * limit < capacity limit := by
    simpa [Lossless] using loses
  have elapsed : bucket.last ≤ now := by omega
  have measured := refill_eq small elapsed
  rw [Nat.min_eq_left short.le] at measured
  generalize tokensAt : bucket.tokens + (now - bucket.last) / 1000000 * limit = tokens at measured short
  -- the next whole order, and the milliseconds after which only the unmeasured bucket has it
  let orders := tokens / TOKENS_PER_ORDER + 1
  let millis := (orders * TOKENS_PER_ORDER - tokens - 1) / limit
  have next : tokens < orders * TOKENS_PER_ORDER := by
    simp only [orders, TOKENS_PER_ORDER]
    omega
  have room : orders * TOKENS_PER_ORDER ≤ capacity limit := by
    unfold capacity at short ⊢
    apply Nat.mul_le_mul_right
    exact (Nat.div_lt_iff_lt_mul (by decide)).mpr short
  have before : millis * limit ≤ orders * TOKENS_PER_ORDER - tokens - 1 := Nat.div_mul_le_self _ _
  have after : orders * TOKENS_PER_ORDER - tokens - 1 < millis * limit + limit :=
    Nat.lt_div_mul_add (Nat.pos_of_ne_zero positive)
  clear_value orders millis
  have bounded : (bucket.refill limit now).tokens ≤ capacity limit := by
    rw [measured]
    exact short.le
  refine ⟨orders, now + (1000000 - (now - bucket.last) % 1000000) + millis * 1000000, by omega, ?_, ?_⟩
  · rw [consume_ok_iff rate small within, refill_eq small (by omega)]
    have whole : (now + (1000000 - (now - bucket.last) % 1000000) + millis * 1000000 - bucket.last) /
        1000000 = (now - bucket.last) / 1000000 + (millis + 1) := by omega
    rw [whole, Nat.add_mul, Nat.add_mul, Nat.one_mul]
    simp only
    omega
  · rw [Ne, consume_ok_iff rate small bounded, measured, refill_eq small (by simp only; omega)]
    have partly : (now + (1000000 - (now - bucket.last) % 1000000) + millis * 1000000 - now) / 1000000 =
        millis := by omega
    simp only [partly]
    omega

end Measure

section Runs

variable {ops : DecimalOps} {limits : RiskLimits} {limit : Nat}

/-- Two buckets measure the same from an instant on. -/
def Agree (limit since : Nat) (first second : Bucket) : Prop :=
  ∀ later, since ≤ later → first.refill limit later = second.refill limit later

theorem Agree.later {since later : Nat} {first second : Bucket} (agree : Agree limit since first second)
    (ordered : since ≤ later) : Agree limit later first second :=
  fun instant reached => agree instant (ordered.trans reached)

theorem Agree.attempt (rate : limits.maxOrdersPerMinute = some limit) {first second : Bucket}
    {call : Attempt} (agree : Agree limit call.now first second) :
    (attempt ops limits first call).1 = (attempt ops limits second call).1 ∧
      Agree limit call.now (attempt ops limits first call).2 (attempt ops limits second call).2 := by
  unfold Risk.attempt admitIntents
  cases check ops limits call.intents call.resting with
  | none => exact ⟨rfl, agree⟩
  | some answer =>
    cases answer with
    | error violation => exact ⟨rfl, agree⟩
    | ok =>
      have same : consume limits first call.intents.length call.now =
          consume limits second call.intents.length call.now := by
        rw [consume_eq rate first rfl, consume_eq rate second rfl, agree call.now (le_refl _)]
      simp only [same, true_and]
      exact fun _ _ => rfl

/-- A call is refused. -/
def Refused (ops : DecimalOps) (limits : RiskLimits) (bucket : Bucket) (call : Attempt) : Prop :=
  ∃ violation, (attempt ops limits bucket call).1 = some (.error violation)

/-- A call that reaches the bucket loses nothing of it. -/
def Free (ops : DecimalOps) (limits : RiskLimits) (limit : Nat) (bucket : Bucket) (call : Attempt) : Prop :=
  check ops limits call.intents call.resting = some (.ok ()) → Lossless limit call.now bucket

/-- Every extra call of a run meets a condition on the bucket it finds. -/
def EachExtra (ops : DecimalOps) (limits : RiskLimits) (meets : Bucket → Attempt → Prop)
    (bucket : Bucket) (run : List Marked) : Prop :=
  ∀ earlier call later, run = earlier ++ (call, true) :: later →
    meets (bucketAfter ops limits bucket (earlier.map Prod.fst)) call

theorem eachExtra_iff_along {meets : Bucket → Attempt → Prop} {bucket : Bucket} {run : List Marked} :
    EachExtra ops limits meets bucket run ↔
      Runs.Along (fun bucket entry => (attempt ops limits bucket entry.1).2)
        (fun bucket entry => entry.2 = true → meets bucket entry.1) bucket run := by
  have reached : ∀ earlier : List Marked,
      earlier.foldl (fun bucket entry => (attempt ops limits bucket entry.1).2) bucket =
        bucketAfter ops limits bucket (earlier.map Prod.fst) := fun earlier => by
    rw [bucketAfter, List.foldl_map]
  rw [Runs.along_iff_split]
  simp only [reached]
  constructor
  · rintro each earlier ⟨call, extra⟩ later cut rfl
    exact each earlier call later cut
  · intro each earlier call later cut
    exact each earlier (call, true) later cut rfl

/-- What a refused call leaves: the bucket as it was, or as it measured it. -/
theorem Refused.bucket (rate : limits.maxOrdersPerMinute = some limit) {bucket : Bucket} {call : Attempt}
    (refused : Refused ops limits bucket call) :
    (check ops limits call.intents call.resting ≠ some (.ok ()) ∧
        (attempt ops limits bucket call).2 = bucket) ∨
      check ops limits call.intents call.resting = some (.ok ()) ∧
        (attempt ops limits bucket call).2 = bucket.refill limit call.now := by
  obtain ⟨violation, refused⟩ := refused
  unfold attempt admitIntents at refused ⊢
  cases checked : check ops limits call.intents call.resting with
  | none => exact .inl ⟨nofun, rfl⟩
  | some answer =>
    cases answer with
    | error violation => exact .inl ⟨nofun, rfl⟩
    | ok =>
      simp only [checked, Option.some.injEq] at refused
      exact .inr ⟨rfl, consume_refused rate refused⟩

theorem keptAnswers_eq (rate : limits.maxOrdersPerMinute = some limit) (small : limit < 2 ^ 32)
    {since : Nat} {lone crowded : Bucket} {run : List Marked}
    (agree : Agree limit since lone crowded) (starts : ∀ entry ∈ run, since ≤ entry.1.now)
    (ordered : run.Pairwise fun first second => first.1.now ≤ second.1.now)
    (refused : EachExtra ops limits (Refused ops limits) crowded run)
    (free : EachExtra ops limits (Free ops limits limit) crowded run) :
    keptAnswers ops limits crowded run = answers ops limits lone (kept run) := by
  rw [eachExtra_iff_along] at refused free
  induction run generalizing since lone crowded with
  | nil => rfl
  | cons entry rest ih =>
    obtain ⟨call, extra⟩ := entry
    obtain ⟨later, rising⟩ := List.pairwise_cons.mp ordered
    obtain ⟨refusedHere, refused⟩ := refused
    obtain ⟨freeHere, free⟩ := free
    have now := agree.later (starts _ (List.mem_cons_self ..))
    cases extra with
    | false =>
      obtain ⟨same, after⟩ := Agree.attempt rate now
      have others := ih after later rising refused free
      simp only [keptAnswers, others, Bool.false_eq_true, if_false]
      simp [kept, answers, same]
    | true =>
      have after : Agree limit call.now lone (attempt ops limits crowded call).2 := by
        rcases (refusedHere rfl).bucket rate with ⟨_, same⟩ | ⟨passes, measured⟩
        · rwa [same]
        · intro instant reached
          rw [measured, (freeHere rfl passes).refill_refill small reached]
          exact now instant reached
      simp only [keptAnswers, if_true, ih after later rising refused free]
      simp [kept]

/-- The milliseconds in which a limit earns one order. -/
def waitFor (limit : Nat) : Nat := (TOKENS_PER_ORDER + limit - 1) / limit

/-- An order after the wait is admitted, whatever the bucket held. -/
theorem attempt_after_wait (rate : limits.maxOrdersPerMinute = some limit) (small : limit < 2 ^ 32)
    {bucket : Bucket} (within : bucket.tokens ≤ capacity limit) (positive : 0 < limit) {call : Attempt}
    (single : call.intents.length = 1)
    (passes : check ops limits call.intents call.resting = some (.ok ()))
    (waits : bucket.last + waitFor limit * 1000000 ≤ call.now) :
    (attempt ops limits bucket call).1 = some (.ok ()) := by
  have earned : TOKENS_PER_ORDER ≤ (call.now - bucket.last) / 1000000 * limit := by
    have enough : TOKENS_PER_ORDER + limit - 1 < waitFor limit * limit + limit :=
      Nat.lt_div_mul_add positive
    have elapsed : waitFor limit * limit ≤ (call.now - bucket.last) / 1000000 * limit := by
      apply Nat.mul_le_mul_right
      omega
    omega
  have room : TOKENS_PER_ORDER ≤ capacity limit := Nat.le_mul_of_pos_left _ positive
  have covered : (consume limits bucket call.intents.length call.now).1 = .ok () := by
    rw [consume_ok_iff rate small within, refill_eq small (by omega), single]
    simp only
    omega
  simp [attempt, admitIntents, passes, covered]

/-- Refused calls cost nothing as long as each that reaches the bucket finds nothing to lose: the
others are answered as without them, and an order is admitted after its wait.
A refused call that loses something changes the answer to some batch after it. -/
theorem refusals_free (rate : limits.maxOrdersPerMinute = some limit) (small : limit < 2 ^ 32)
    {bucket : Bucket} (within : bucket.tokens ≤ capacity limit) :
    (∀ run : List Marked, (run.Pairwise fun first second => first.1.now ≤ second.1.now) →
      EachExtra ops limits (Refused ops limits) bucket run →
      EachExtra ops limits (Free ops limits limit) bucket run →
      keptAnswers ops limits bucket run = answers ops limits bucket (kept run)) ∧
    (∀ (extras : List Marked) (call : Attempt), 0 < limit → (∀ entry ∈ extras, entry.2 = true) →
      ((extras ++ [(call, false)]).Pairwise fun first second => first.1.now ≤ second.1.now) →
      EachExtra ops limits (Refused ops limits) bucket (extras ++ [(call, false)]) →
      EachExtra ops limits (Free ops limits limit) bucket (extras ++ [(call, false)]) →
      call.intents.length = 1 → check ops limits call.intents call.resting = some (.ok ()) →
      bucket.last + waitFor limit * 1000000 ≤ call.now →
      keptAnswers ops limits bucket (extras ++ [(call, false)]) = [(call, some (.ok ()))]) ∧
    ∀ call, Refused ops limits bucket call → ¬ Free ops limits limit bucket call →
      ∃ orders later, call.now ≤ later ∧
        (consume limits (attempt ops limits bucket call).2 orders later).1 ≠
          (consume limits bucket orders later).1 := by
  have undisturbed : ∀ run : List Marked,
      (run.Pairwise fun first second => first.1.now ≤ second.1.now) →
      EachExtra ops limits (Refused ops limits) bucket run →
      EachExtra ops limits (Free ops limits limit) bucket run →
      keptAnswers ops limits bucket run = answers ops limits bucket (kept run) := by
    intro run ordered refused free
    exact keptAnswers_eq rate small (fun _ _ => rfl) (fun _ _ => Nat.zero_le _) ordered refused free
  refine ⟨undisturbed, ?_, ?_⟩
  · intro extras call positive all ordered refused free single passes waits
    have alone : kept (extras ++ [(call, false)]) = [call] := by
      have nothing : extras.filter (fun entry => !entry.2) = [] := by
        rw [List.filter_eq_nil_iff]
        intro entry member
        simp [all entry member]
      simp [kept, nothing]
    rw [undisturbed _ ordered refused free, alone, answers, answers,
      attempt_after_wait rate small within positive single passes waits]
  · intro call refused costs
    obtain ⟨passes, loses⟩ : check ops limits call.intents call.resting = some (.ok ()) ∧
        ¬ Lossless limit call.now bucket := by
      simpa [Free] using costs
    obtain ⟨orders, later, ordered, covered, short⟩ := exists_felt rate small within loses
    refine ⟨orders, later, ordered, ?_⟩
    have after : (attempt ops limits bucket call).2 = bucket.refill limit call.now := by
      rcases refused.bucket rate with ⟨stopped, _⟩ | ⟨_, measured⟩
      · exact absurd passes stopped
      · exact measured
    rw [after, covered]
    exact short

/-- At one order a minute, a retry on a whole millisecond is free and one in between costs the
caller its order. -/
theorem refusals_free_one_per_minute :
    let limits : RiskLimits := ⟨none, none, some 1, none, none⟩
    let order (now : Nat) : Attempt := ⟨[⟨"BTC/USDT", true, ⟨1, 0⟩, none⟩], none, now⟩
    let run := [(order 0, false), (order 1000000, true), (order 60000000000, false)]
    keptAnswers decimal96 limits (.full limits 0) run = answers decimal96 limits (.full limits 0) (kept run) ∧
      ∃ orders later, 500000 ≤ later ∧
        (consume limits (attempt decimal96 limits ⟨0, 0⟩ (order 500000)).2 orders later).1 ≠
          (consume limits ⟨0, 0⟩ orders later).1 := by
  intro limits order run
  have small : 1 < 2 ^ 32 := by decide
  constructor
  · refine (refusals_free rfl small (by decide)).1 run (by simp [run, order]) ?_ ?_
    · rw [eachExtra_iff_along]
      exact ⟨nofun, fun _ => ⟨.rate 1, by decide⟩, nofun, trivial⟩
    · rw [eachExtra_iff_along]
      exact ⟨nofun, fun _ _ => .inr (.inl (by decide)), nofun, trivial⟩
  · refine (refusals_free rfl small (by decide)).2.2 (order 500000) ⟨.rate 1, by decide⟩ fun free => ?_
    have lossless := free (by decide)
    simp [Lossless, capacity, TOKENS_PER_ORDER, order] at lossless

/-- An order at 0, a refused retry half a millisecond later, and the order that was due after a minute
is refused as well. -/
theorem retry_starves :
    let limits : RiskLimits := ⟨none, none, some 1, none, none⟩
    let order (now : Nat) : Attempt := ⟨[⟨"BTC/USDT", true, ⟨1, 0⟩, none⟩], none, now⟩
    let run := [(order 0, false), (order 500000, true), (order 60000000000, false)]
    (answers decimal96 limits (.full limits 0) (run.map Prod.fst)).map Prod.snd =
        [some (.ok ()), some (.error (.rate 1)), some (.error (.rate 1))] ∧
      (answers decimal96 limits (.full limits 0) (kept run)).map Prod.snd =
        [some (.ok ()), some (.ok ())] ∧
      keptAnswers decimal96 limits (.full limits 0) run ≠
        answers decimal96 limits (.full limits 0) (kept run) := by
  intro limits order run
  have lone : (answers decimal96 limits (.full limits 0) (kept run)).map Prod.snd =
      [some (.ok ()), some (.ok ())] := by decide
  have crowded : (keptAnswers decimal96 limits (.full limits 0) run).map Prod.snd =
      [some (.ok ()), some (.error (.rate 1))] := by decide
  refine ⟨by decide, lone, fun same => ?_⟩
  rw [same, lone] at crowded
  cases crowded

end Runs

end LongTrader.Risk
