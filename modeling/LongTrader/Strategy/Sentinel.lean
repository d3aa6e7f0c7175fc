import LongTrader.Contract
import LongTrader.Runs

/-! The sentinel: it probes the backend and cancels every order once an outage reaches its threshold.
It counts the failed probes of an outage in 32 bits, and the count wraps. -/

namespace LongTrader.Strategy.Sentinel

/-- `from_params` refuses a threshold below one. -/
structure SentinelConfig where
  exchangeId : ExchangeId
  symbol : String
  maxConsecutiveFailures : UInt32
  positive : 1 ≤ maxConsecutiveFailures

/-- Failure counter plus the kill switch's arming. -/
structure Health where
  failures : UInt32
  armed : Bool
  deriving DecidableEq, Repr

/-- `Health::default`. -/
def Health.default : Health := ⟨0, false⟩

/-- The request of a kill switch: every order of an exchange, on every symbol if there is none. -/
structure CancelAllOrders where
  exchangeId : ExchangeId
  symbol : String
  deriving DecidableEq, Repr

/-- What a cycle meets: the two answers to its probe, and the answer to its cancel if it asks. -/
structure Cycle where
  ticker : Except PortError Unit
  account : Except PortError Unit
  cancel : Except PortError Unit

/-- The probe: the ticker and then the account. -/
def Cycle.probe (cycle : Cycle) : Except PortError Unit := do
  cycle.ticker
  cycle.account

def Cycle.failed (cycle : Cycle) : Bool := !cycle.probe.isOk

def Cycle.accepts (cycle : Cycle) : Bool := cycle.cancel.isOk

/-- What a cycle leaves, what it cancels, and what it answers. -/
structure Ticked where
  health : Health
  cancel : Option CancelAllOrders
  answer : Except PortError Bool

/-- `Sentinel::tick`. The counter wraps, as `u32` does in a release build. -/
def tick (config : SentinelConfig) (health : Health) (cycle : Cycle) : Ticked :=
  match cycle.probe with
  | .ok () => ⟨.default, none, .ok true⟩
  | .error _ =>
    let n := health.failures + 1
    let fire := decide (config.maxConsecutiveFailures ≤ n) && !health.armed
    if fire then
      match cycle.cancel with
      -- The safety net did not deploy, so the next failed probe has to try again.
      | .error error => ⟨⟨n, false⟩, some ⟨config.exchangeId, ""⟩, .error error⟩
      | .ok () => ⟨⟨n, true⟩, some ⟨config.exchangeId, ""⟩, .ok false⟩
    else ⟨⟨n, health.armed⟩, none, .ok false⟩

/-- The health of a new sentinel after some cycles. -/
def healthAfter (config : SentinelConfig) (cycles : List Cycle) : Health :=
  cycles.foldl (fun health cycle => (tick config health cycle).health) .default

/-- The outage that is going on: its failed probes so far, and whether a cancel has succeeded in it. -/
structure Outage where
  length : Nat
  covered : Bool

/-- A failed probe calls for a cancel from the threshold on, until one has succeeded. -/
def Outage.due (threshold : Nat) (outage : Outage) : Bool :=
  decide (threshold ≤ outage.length + 1) && !outage.covered

def Outage.next (threshold : Nat) (outage : Outage) (cycle : Cycle) : Outage :=
  if cycle.failed then
    ⟨outage.length + 1, outage.covered || (outage.due threshold && cycle.accepts)⟩
  else ⟨0, false⟩

/-- The outage after some cycles. -/
def outageAfter (threshold : Nat) (cycles : List Cycle) : Outage :=
  cycles.foldl (Outage.next threshold) ⟨0, false⟩

/-- Every cycle of a run cancels just when its outage calls for it, and then every order. -/
def Cancels (config : SentinelConfig) (cycles : List Cycle) : Prop :=
  ∀ earlier cycle later, cycles = earlier ++ cycle :: later →
    (tick config (healthAfter config earlier) cycle).cancel =
      if cycle.failed && (outageAfter config.maxConsecutiveFailures.toNat earlier).due
          config.maxConsecutiveFailures.toNat
      then some ⟨config.exchangeId, ""⟩ else none

/-- In no outage does the counter wrap before a cancel has succeeded. -/
def Covered (config : SentinelConfig) (cycles : List Cycle) : Prop :=
  ∀ earlier cycle later, cycles = earlier ++ cycle :: later → cycle.failed = true →
    (outageAfter config.maxConsecutiveFailures.toNat earlier).length + 1 = 2 ^ 32 →
      (outageAfter config.maxConsecutiveFailures.toNat earlier).covered = true

section Runs

variable {config : SentinelConfig}

/-- The health of the sentinel is that of the outage, counted in 32 bits. -/
structure Tracks (config : SentinelConfig) (health : Health) (outage : Outage) : Prop where
  failures : health.failures.toNat = outage.length % 2 ^ 32
  armed : health.armed = outage.covered
  wrapped : 2 ^ 32 ≤ outage.length → outage.covered = true

theorem Tracks.default : Tracks config .default ⟨0, false⟩ := ⟨rfl, rfl, nofun⟩

theorem tick_healthy (health : Health) {cycle : Cycle} (healthy : cycle.failed = false) :
    tick config health cycle = ⟨.default, none, .ok true⟩ := by
  unfold Cycle.failed at healthy
  unfold tick
  cases probed : cycle.probe with
  | ok => rfl
  | error error => simp [probed, Except.isOk, Except.toBool] at healthy

/-- A failed probe: it cancels when it fires, and stays armed unless the cancel succeeds. -/
theorem tick_failed (health : Health) {cycle : Cycle} (failed : cycle.failed = true) :
    (tick config health cycle).health = ⟨health.failures + 1, health.armed ||
        (decide (config.maxConsecutiveFailures ≤ health.failures + 1) && !health.armed && cycle.accepts)⟩ ∧
      (tick config health cycle).cancel =
        if decide (config.maxConsecutiveFailures ≤ health.failures + 1) && !health.armed
        then some ⟨config.exchangeId, ""⟩ else none := by
  unfold Cycle.failed at failed
  unfold tick Cycle.accepts
  cases probed : cycle.probe with
  | ok => simp [probed, Except.isOk, Except.toBool] at failed
  | error error =>
    simp only
    cases fire : decide (config.maxConsecutiveFailures ≤ health.failures + 1) && !health.armed with
    | false => simp
    | true =>
      have unarmed : health.armed = false := by
        simpa using (Bool.and_eq_true_iff.mp fire).2
      cases cycle.cancel with
      | ok => simp [unarmed, Except.isOk, Except.toBool]
      | error refusal => simp [unarmed, Except.isOk, Except.toBool]

theorem Tracks.count {health : Health} {outage : Outage} (tracks : Tracks config health outage) :
    (health.failures + 1).toNat = (outage.length + 1) % 2 ^ 32 := by
  rw [UInt32.toNat_add, tracks.failures]
  simp

/-- The sentinel fires when its outage calls for a cancel, unless the count wraps uncovered. -/
theorem Tracks.fire {health : Health} {outage : Outage} (tracks : Tracks config health outage)
    (covered : outage.length + 1 = 2 ^ 32 → outage.covered = true) :
    (decide (config.maxConsecutiveFailures ≤ health.failures + 1) && !health.armed) =
      outage.due config.maxConsecutiveFailures.toNat := by
  rw [Outage.due, tracks.armed]
  cases done : outage.covered with
  | true => simp
  | false =>
    have below : outage.length + 1 < 2 ^ 32 := by
      by_contra reached
      have within : ¬ 2 ^ 32 ≤ outage.length := fun wrapped => by
        simp [tracks.wrapped wrapped] at done
      have exact : outage.length + 1 = 2 ^ 32 := by omega
      simp [covered exact] at done
    have counted : config.maxConsecutiveFailures ≤ health.failures + 1 ↔
        config.maxConsecutiveFailures.toNat ≤ outage.length + 1 := by
      rw [UInt32.le_iff_toNat_le, tracks.count, Nat.mod_eq_of_lt below]
    rw [decide_eq_decide.mpr counted]

/-- A count that wraps to zero reaches no threshold. -/
theorem Tracks.covered_of_cancels {health : Health} {outage : Outage} {cycle : Cycle}
    (tracks : Tracks config health outage) (failed : cycle.failed = true)
    (cancels : (tick config health cycle).cancel =
      if cycle.failed && outage.due config.maxConsecutiveFailures.toNat
      then some ⟨config.exchangeId, ""⟩ else none)
    (wraps : outage.length + 1 = 2 ^ 32) : outage.covered = true := by
  have zero : (health.failures + 1).toNat = 0 := by
    rw [tracks.count, wraps, Nat.mod_self]
  have positive : 0 < config.maxConsecutiveFailures.toNat :=
    UInt32.le_iff_toNat_le.mp config.positive
  have below : ¬ config.maxConsecutiveFailures ≤ health.failures + 1 := by
    rw [UInt32.le_iff_toNat_le, zero]
    omega
  have reached : config.maxConsecutiveFailures.toNat ≤ outage.length + 1 := by
    have bound := config.maxConsecutiveFailures.toNat_lt
    omega
  rw [(tick_failed health failed).2] at cancels
  by_contra uncovered
  simp [failed, Outage.due, below, reached, uncovered] at cancels

theorem Tracks.next {health : Health} {outage : Outage} {cycle : Cycle}
    (tracks : Tracks config health outage)
    (covered : cycle.failed = true → outage.length + 1 = 2 ^ 32 → outage.covered = true) :
    Tracks config (tick config health cycle).health
      (outage.next config.maxConsecutiveFailures.toNat cycle) := by
  unfold Outage.next
  cases failed : cycle.failed with
  | false =>
    rw [tick_healthy health failed]
    exact .default
  | true =>
    have fire := tracks.fire (covered failed)
    rw [(tick_failed health failed).1, if_pos rfl]
    refine ⟨tracks.count, ?_, fun reached => ?_⟩
    · rw [fire, tracks.armed]
    · have before : outage.covered = true := by
        rcases Nat.lt_or_ge outage.length (2 ^ 32) with below | wrapped
        · exact covered failed (by simp only at reached; omega)
        · exact tracks.wrapped wrapped
      simp [before]

theorem Tracks.cancels {health : Health} {outage : Outage} {cycle : Cycle}
    (tracks : Tracks config health outage)
    (covered : cycle.failed = true → outage.length + 1 = 2 ^ 32 → outage.covered = true) :
    (tick config health cycle).cancel =
      if cycle.failed && outage.due config.maxConsecutiveFailures.toNat
      then some ⟨config.exchangeId, ""⟩ else none := by
  cases failed : cycle.failed with
  | false =>
    rw [tick_healthy health failed]
    rfl
  | true => rw [(tick_failed health failed).2, tracks.fire (covered failed), Bool.true_and]

/-- A run cancels as its outages call for, if and only if no outage reaches `2 ^ 32` failed probes
without a cancel that has succeeded. -/
theorem cancels_iff_covered (config : SentinelConfig) (cycles : List Cycle) :
    Cancels config cycles ↔ Covered config cycles := by
  let threshold := config.maxConsecutiveFailures.toNat
  let cancels (both : Health × Outage) (cycle : Cycle) : Prop :=
    (tick config both.1 cycle).cancel =
      if cycle.failed && both.2.due threshold then some ⟨config.exchangeId, ""⟩ else none
  let covered (both : Health × Outage) (cycle : Cycle) : Prop :=
    cycle.failed = true → both.2.length + 1 = 2 ^ 32 → both.2.covered = true
  let step (both : Health × Outage) (cycle : Cycle) : Health × Outage :=
    ((tick config both.1 cycle).health, both.2.next threshold cycle)
  have reached : ∀ earlier : List Cycle, earlier.foldl step (.default, ⟨0, false⟩) =
      (healthAfter config earlier, outageAfter threshold earlier) := fun earlier =>
    Runs.foldl_pair (fun health cycle => (tick config health cycle).health) (Outage.next threshold) earlier _ _
  have same : Runs.Along step cancels (.default, ⟨0, false⟩) cycles ↔
      Runs.Along step covered (.default, ⟨0, false⟩) cycles := by
    refine @Runs.along_congr _ _ step (fun both => Tracks config both.1 both.2) cancels covered ?_ ?_
      _ .default cycles
    · intro both cycle tracks
      exact ⟨fun cancels failed => tracks.covered_of_cancels failed cancels, fun covered => tracks.cancels covered⟩
    · intro both cycle tracks covered
      exact tracks.next covered
  rw [Runs.along_iff_split, Runs.along_iff_split] at same
  simp only [reached] at same
  exact same

/-- A failed probe whose outage refuses every cancel. -/
def refusedCycle : Cycle := ⟨.error (.transport "no link"), .ok (), .error (.transport "cancel-all refused")⟩

theorem healthAfter_refused (config : SentinelConfig) (n : Nat) :
    healthAfter config (List.replicate n refusedCycle) = ⟨UInt32.ofNat n, false⟩ := by
  induction n with
  | zero => rfl
  | succ n ih =>
    rw [List.replicate_succ', healthAfter, List.foldl_concat, ← healthAfter, ih,
      (tick_failed _ rfl).1]
    simp [refusedCycle, Cycle.accepts, Except.isOk, Except.toBool, UInt32.ofNat_add]

theorem outageAfter_refused (threshold n : Nat) :
    outageAfter threshold (List.replicate n refusedCycle) = ⟨n, false⟩ := by
  induction n with
  | zero => rfl
  | succ n ih =>
    rw [List.replicate_succ', outageAfter, List.foldl_concat, ← outageAfter, ih]
    simp [Outage.next, refusedCycle, Cycle.failed, Cycle.probe, Cycle.accepts, Except.isOk, Except.toBool,
      bind, Except.bind]

/-- The failed probe at which the count wraps asks for no cancel, though every one before it was
refused. -/
theorem wrapped_count_stands_down :
    let config : SentinelConfig := ⟨default, "BTC/USDT", 1, by decide⟩
    ¬ Cancels config (List.replicate (2 ^ 32 - 1) refusedCycle ++ [refusedCycle]) := by
  intro config cancels
  have last := cancels _ refusedCycle [] rfl
  rw [healthAfter_refused, outageAfter_refused, (tick_failed _ rfl).2] at last
  exact absurd last (by decide)

end Runs

end LongTrader.Strategy.Sentinel
