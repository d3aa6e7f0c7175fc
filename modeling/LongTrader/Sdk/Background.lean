import LongTrader.Runs
import LongTrader.Sdk.Session

/-! The two background loops of the Go session, the heartbeat and the lease watchdog, on one exact
clock: a timer wakes its loop at the instant it is due, the loops take their steps at one instant
in any order, and every `KeepAlive` is answered in the instant it is sent. -/

namespace LongTrader.Sdk.Go

/-- `time.Millisecond`. -/
def millisecond : Int := 1000000

def heartbeatFloor : Int := 50 * millisecond
def defaultLeaseFloor : Int := 1500 * millisecond

/-- `Session.leaseBudget`. -/
def Session.leaseBudget (s : Session) (explicit : Int) : Int :=
  if 0 < explicit then explicit
  else
    let d := 3 * s.heartbeatIntervalMS.toNat * millisecond
    if d < defaultLeaseFloor then defaultLeaseFloor else d

/-- `Session.heartbeatInterval`. -/
def Session.heartbeatInterval (s : Session) : Int :=
  let d := s.heartbeatIntervalMS.toNat * millisecond
  if d < heartbeatFloor then heartbeatFloor else d

/-- What a critical section that asks the host for nothing leaves of the session. -/
def Session.after (s : Session) (op : Op) (now : Int) : Session :=
  (s.exec op ⟨now, fun _ => .error (.other "")⟩).2

/-- The keys of `bgKinds`. -/
inductive Tier where
  | heartbeatLoop
  | watchdogLoop
  deriving DecidableEq

/-- Where a background loop stands, with its budget and the instant its timer is due. -/
inductive Loop where
  | absent
  | spawned
  -- At the head of the `for`, before `heartbeatInterval`.
  | arming (lease : Int)
  | asleep (lease due : Int)
  -- Woken, before the `KeepAlive` that only the heartbeat sends.
  | beating (lease : Int)
  -- Before `checkLease`.
  | checking (lease : Int)
  | returned
  deriving DecidableEq

/-- The session with its loops, and the clock. -/
structure Background where
  session : Session
  now : Int
  heartbeat : Loop
  watchdog : Loop
  deriving DecidableEq

/-- What happens next: time passes, a call of the strategy runs a critical section, a loop is
started, or a loop takes its next step. -/
inductive Happening where
  | elapse (time : Nat)
  | call (op : Op)
  | startHeartbeat
  | enterHeartbeat
  | spawnLeaseWatchdog (leaseTimeout : Int)
  | arm (tier : Tier)
  | wake (tier : Tier)
  | keepAlive (heartbeatIntervalMS : UInt32)
  | check (tier : Tier)

/-- Whether the loop lets the clock reach an instant: it takes its steps without delay and sleeps
no longer than it set out to. -/
def Loop.lets (instant : Int) : Loop → Bool
  | .absent | .returned => true
  | .asleep _ due => decide (instant ≤ due)
  | .spawned | .arming _ | .beating _ | .checking _ => false

/-- The budget of a loop that has one. -/
def Loop.lease : Loop → Option Int
  | .arming lease | .asleep lease _ | .beating lease | .checking lease => some lease
  | .absent | .spawned | .returned => none

def Background.loop (b : Background) : Tier → Loop
  | .heartbeatLoop => b.heartbeat
  | .watchdogLoop => b.watchdog

def Background.put (b : Background) : Tier → Loop → Background
  | .heartbeatLoop, loop => { b with heartbeat := loop }
  | .watchdogLoop, loop => { b with watchdog := loop }

/-- The timer of a loop fires. -/
def Loop.woken (now : Int) : Tier → Loop → Loop
  | .heartbeatLoop, .asleep lease due => if due ≤ now then .beating lease else .asleep lease due
  | .watchdogLoop, .asleep lease due => if due ≤ now then .checking lease else .asleep lease due
  | _, loop => loop

/-- The `checkLease` of a loop. -/
def Background.check (b : Background) (tier : Tier) (lease : Int) : Background :=
  match b.session.checkLease lease b.now with
  | ((alreadyTripped, tripped), session) =>
    { b with session := session }.put tier
      (if !tripped || alreadyTripped then .arming lease else .returned)

/-- What happens leaves the session and its loops as follows, and what cannot happen there changes
nothing. -/
def Background.step (b : Background) : Happening → Background
  | .elapse time =>
    if b.heartbeat.lets (b.now + time) && b.watchdog.lets (b.now + time) then
      { b with now := b.now + time }
    else b
  -- No call of the strategy checks the lease.
  | .call (.checkLease _) => b
  | .call op => { b with session := b.session.after op b.now }
  | .startHeartbeat => if b.heartbeat = .absent then { b with heartbeat := .spawned } else b
  | .enterHeartbeat =>
    if b.heartbeat = .spawned then { b with heartbeat := .arming (b.session.leaseBudget 0) } else b
  | .spawnLeaseWatchdog leaseTimeout =>
    if b.watchdog = .absent then
      { b with watchdog := .arming (b.session.leaseBudget leaseTimeout) }
    else b
  | .arm tier => match b.loop tier with
    | .arming lease => b.put tier (.asleep lease (b.now + b.session.heartbeatInterval))
    | _ => b
  | .wake tier => b.put tier ((b.loop tier).woken b.now tier)
  | .keepAlive heartbeatIntervalMS => match b.heartbeat with
    | .beating lease =>
      { b with
        session := b.session.after (.keptAlive heartbeatIntervalMS) b.now
        heartbeat := .checking lease }
    | _ => b
  | .check tier => match b.loop tier with
    | .checking lease => b.check tier lease
    | _ => b

/-- An attached session before either of its loops. -/
structure Attached (b : Background) : Prop where
  untripped : b.session.leaseTripped = false
  attached : b.session.lastOK ≤ b.now
  noHeartbeat : b.heartbeat = .absent
  noWatchdog : b.watchdog = .absent

/-- The next `KeepAlive` is to fall due within the budget of the watchdog: where the heartbeat
arms its timer, where the watchdog takes its budget, and as long as no heartbeat is started. -/
def Timely (b : Background) : Happening → Prop
  | .arm .heartbeatLoop => ∀ lease, b.watchdog.lease = some lease →
      b.now + b.session.heartbeatInterval ≤ b.session.lastOK + lease
  | .spawnLeaseWatchdog leaseTimeout => ∀ lease due, b.heartbeat = .asleep lease due →
      due ≤ b.session.lastOK + b.session.leaseBudget leaseTimeout
  | .elapse time => b.heartbeat = .absent → ∀ lease, b.watchdog = .asleep lease (b.now + time) →
      b.now + time ≤ b.session.lastOK + lease
  | _ => True

instance Loop.decidableAsleep (loop : Loop) (holds : Int → Int → Prop)
    [∀ lease due, Decidable (holds lease due)] :
    Decidable (∀ lease due, loop = .asleep lease due → holds lease due) :=
  match loop with
  | .asleep lease due => decidable_of_iff (holds lease due) (by simp +contextual)
  | .absent | .spawned | .arming _ | .beating _ | .checking _ | .returned => isTrue (by simp)

instance (b : Background) : (happening : Happening) → Decidable (Timely b happening)
  | .arm .heartbeatLoop => inferInstanceAs (Decidable (∀ lease ∈ b.watchdog.lease,
      b.now + b.session.heartbeatInterval ≤ b.session.lastOK + lease))
  | .spawnLeaseWatchdog leaseTimeout => inferInstanceAs (Decidable (∀ lease due,
      b.heartbeat = .asleep lease due → due ≤ b.session.lastOK + b.session.leaseBudget leaseTimeout))
  | .elapse time => decidable_of_iff (b.heartbeat = .absent → ∀ lease due,
      b.watchdog = .asleep lease due → due = b.now + time → due ≤ b.session.lastOK + lease) (by
        constructor
        · intro each absent lease asleep
          exact each absent lease _ asleep rfl
        · rintro each absent lease due asleep rfl
          exact each absent lease asleep)
  | .call _ | .startHeartbeat | .enterHeartbeat | .arm .watchdogLoop | .wake _ | .keepAlive _
  | .check _ => isTrue trivial

namespace Session

/-- What a budget allows has not lapsed, and a `checkLease` that finds nothing lapsed changes
nothing. -/
theorem checkLease_within {s : Session} {lease now : Int} (untripped : s.leaseTripped = false)
    (positive : 0 ≤ lease) (within : now ≤ s.lastOK + lease) :
    s.checkLease lease now = ((false, false), s) := by
  have elapsed : ¬ lease < since now s.lastOK := by
    unfold since
    omega
  simp [Session.checkLease, untripped, elapsed]

/-- A critical section other than that of `checkLease` trips nothing, and dates the last success
to now or not at all. -/
theorem after_spec (s : Session) (now : Int) {op : Op} (unchecked : ∀ lease, op ≠ .checkLease lease) :
    (s.after op now).leaseTripped = s.leaseTripped ∧
      ((s.after op now).lastOK = s.lastOK ∨ (s.after op now).lastOK = now) := by
  cases op with
  | checkLease lease => exact absurd rfl (unchecked lease)
  | keptAlive heartbeat => exact ⟨rfl, .inr rfl⟩
  | sessionID | state | setState | reconciled | timeNow | unary => exact ⟨rfl, .inl rfl⟩

theorem leaseBudget_pos (s : Session) (explicit : Int) : 0 < s.leaseBudget explicit := by
  unfold leaseBudget defaultLeaseFloor millisecond
  dsimp only
  split
  · assumption
  · split <;> omega

theorem heartbeatInterval_pos (s : Session) : 0 < s.heartbeatInterval := by
  unfold heartbeatInterval heartbeatFloor millisecond
  dsimp only
  split <;> omega

end Session

/-- The loop is about to check a budget, now or as soon as its timer fires. -/
def Loop.Checks (now lease : Int) (loop : Loop) : Prop :=
  loop = .checking lease ∨ loop = .asleep lease now

theorem Loop.Checks.has {now lease : Int} {loop : Loop} (checks : loop.Checks now lease) :
    loop.lease = some lease := by
  rcases checks with rfl | rfl
  · rfl
  · rfl

def Loop.Sleeps (loop : Loop) : Prop := ∃ lease due, loop = .asleep lease due

/-- Nothing has tripped, and nothing is about to: the next `KeepAlive` falls due within the budget
of the watchdog, and where none is on its way a check finds the budget kept. -/
structure Healthy (b : Background) : Prop where
  untripped : b.session.leaseTripped = false
  attached : b.session.lastOK ≤ b.now
  running : b.heartbeat ≠ .returned
  asleep : ∀ tier lease due, b.loop tier = .asleep lease due → b.now ≤ due
  positive : ∀ tier lease, (b.loop tier).lease = some lease → 0 < lease
  beaten : ∀ lease, b.heartbeat = .checking lease → b.session.lastOK = b.now
  covered : ∀ lease, b.watchdog.lease = some lease → ∀ own due, b.heartbeat = .asleep own due →
    due ≤ b.session.lastOK + lease
  fresh : ∀ lease, b.watchdog.Checks b.now lease → ¬ b.heartbeat.Sleeps →
    b.now ≤ b.session.lastOK + lease

theorem Attached.healthy {b : Background} (start : Attached b) : Healthy b where
  untripped := start.untripped
  attached := start.attached
  running := by simp [start.noHeartbeat]
  asleep := by
    intro tier lease due sleeps
    cases tier <;> simp [Background.loop, start.noHeartbeat, start.noWatchdog] at sleeps
  positive := by
    intro tier lease has
    cases tier <;> simp [Background.loop, Loop.lease, start.noHeartbeat, start.noWatchdog] at has
  beaten := by simp [start.noHeartbeat]
  covered := by simp [start.noHeartbeat]
  fresh := by simp [Loop.Checks, start.noWatchdog]

namespace Healthy

variable {b : Background}

/-- What the watchdog is about to check has not lapsed. -/
theorem within (healthy : Healthy b) {lease : Int} (checks : b.watchdog.Checks b.now lease) :
    b.now ≤ b.session.lastOK + lease := by
  by_cases sleeps : b.heartbeat.Sleeps
  · obtain ⟨own, due, sleeping⟩ := sleeps
    have notPast := healthy.asleep .heartbeatLoop own due sleeping
    exact notPast.trans (healthy.covered lease checks.has own due sleeping)
  · exact healthy.fresh lease checks sleeps

/-- A critical section that trips nothing and dates the last success to now or not at all. -/
theorem after (healthy : Healthy b) {session : Session} (untripped : session.leaseTripped = false)
    (dated : session.lastOK = b.session.lastOK ∨ session.lastOK = b.now) :
    Healthy { b with session := session } := by
  have attached := healthy.attached
  have newer : b.session.lastOK ≤ session.lastOK := by omega
  refine ⟨untripped, ?_, healthy.running, healthy.asleep, healthy.positive, ?_, ?_, ?_⟩
  · change session.lastOK ≤ b.now
    omega
  · intro lease checking
    have now := healthy.beaten lease checking
    change session.lastOK = b.now
    omega
  · intro lease has own due sleeping
    have kept := healthy.covered lease has own due sleeping
    change due ≤ session.lastOK + lease
    omega
  · intro lease checks awake
    have kept := healthy.fresh lease checks awake
    change b.now ≤ session.lastOK + lease
    omega

/-- The heartbeat goes on to where it does not sleep. -/
theorem beats (healthy : Healthy b) {loop : Loop} (running : loop ≠ .returned)
    (awake : ¬ loop.Sleeps) (positive : ∀ lease, loop.lease = some lease → 0 < lease)
    (beaten : ∀ lease, loop = .checking lease → b.session.lastOK = b.now) :
    Healthy { b with heartbeat := loop } := by
  refine ⟨healthy.untripped, healthy.attached, running, ?_, ?_, beaten, ?_, ?_⟩
  · intro tier lease due sleeps
    cases tier with
    | heartbeatLoop => exact absurd ⟨lease, due, sleeps⟩ awake
    | watchdogLoop => exact healthy.asleep .watchdogLoop lease due sleeps
  · intro tier lease has
    cases tier with
    | heartbeatLoop => exact positive lease has
    | watchdogLoop => exact healthy.positive .watchdogLoop lease has
  · intro lease has own due sleeping
    exact absurd ⟨own, due, sleeping⟩ awake
  · intro lease checks _
    exact healthy.within checks

/-- The watchdog goes on to where what it checks next has not lapsed. -/
theorem watches (healthy : Healthy b) {loop : Loop}
    (asleep : ∀ lease due, loop = .asleep lease due → b.now ≤ due)
    (positive : ∀ lease, loop.lease = some lease → 0 < lease)
    (covered : ∀ lease, loop.lease = some lease → ∀ own due, b.heartbeat = .asleep own due →
      due ≤ b.session.lastOK + lease)
    (fresh : ∀ lease, loop.Checks b.now lease → b.now ≤ b.session.lastOK + lease) :
    Healthy { b with watchdog := loop } := by
  refine ⟨healthy.untripped, healthy.attached, healthy.running, ?_, ?_, healthy.beaten, covered, ?_⟩
  · intro tier lease due sleeps
    cases tier with
    | heartbeatLoop => exact healthy.asleep .heartbeatLoop lease due sleeps
    | watchdogLoop => exact asleep lease due sleeps
  · intro tier lease has
    cases tier with
    | heartbeatLoop => exact healthy.positive .heartbeatLoop lease has
    | watchdogLoop => exact positive lease has
  · intro lease checks _
    exact fresh lease checks

theorem elapse (healthy : Healthy b) {time : Nat} (timely : Timely b (.elapse time)) :
    Healthy (b.step (.elapse time)) := by
  simp only [Background.step]
  split
  case isFalse => exact healthy
  rename_i lets
  obtain ⟨heartbeat, watchdog⟩ := Bool.and_eq_true_iff.mp lets
  have attached := healthy.attached
  refine ⟨healthy.untripped, ?_, healthy.running, ?_, healthy.positive, ?_, healthy.covered, ?_⟩
  · change b.session.lastOK ≤ b.now + time
    omega
  · intro tier lease due sleeps
    cases tier with
    | heartbeatLoop =>
      have sleeping : b.heartbeat = .asleep lease due := sleeps
      simpa [sleeping, Loop.lets] using heartbeat
    | watchdogLoop =>
      have sleeping : b.watchdog = .asleep lease due := sleeps
      simpa [sleeping, Loop.lets] using watchdog
  · intro lease checking
    have beaten : b.heartbeat = .checking lease := checking
    simp [beaten, Loop.lets] at heartbeat
  · intro lease checks awake
    have due : b.watchdog = .asleep lease (b.now + time) := by
      rcases checks with checking | asleep
      · have waiting : b.watchdog = .checking lease := checking
        simp [waiting, Loop.lets] at watchdog
      · exact asleep
    have absent : b.heartbeat = .absent := by
      have running := healthy.running
      have unslept : ¬ b.heartbeat.Sleeps := awake
      cases loop : b.heartbeat with
      | absent => rfl
      | returned => exact absurd loop running
      | asleep own until_ => exact absurd ⟨own, until_, loop⟩ unslept
      | spawned | arming | beating | checking => simp [loop, Loop.lets] at heartbeat
    exact timely absent lease due

theorem arm (healthy : Healthy b) {tier : Tier} (timely : Timely b (.arm tier)) :
    Healthy (b.step (.arm tier)) := by
  have later := b.session.heartbeatInterval_pos
  simp only [Background.step]
  split
  case h_2 => exact healthy
  rename_i lease arming
  have positive := healthy.positive tier lease (by rw [arming]; rfl)
  cases tier with
  | heartbeatLoop =>
    refine ⟨healthy.untripped, healthy.attached, by simp [Background.put], ?_, ?_,
      by simp [Background.put], ?_, ?_⟩
    · intro tier own due sleeps
      cases tier with
      | heartbeatLoop =>
        obtain ⟨rfl, rfl⟩ := Loop.asleep.inj sleeps
        change b.now ≤ b.now + b.session.heartbeatInterval
        omega
      | watchdogLoop => exact healthy.asleep .watchdogLoop own due sleeps
    · intro tier own has
      cases tier with
      | heartbeatLoop =>
        obtain rfl := Option.some.inj has
        exact positive
      | watchdogLoop => exact healthy.positive .watchdogLoop own has
    · intro budget has own due sleeps
      obtain ⟨rfl, rfl⟩ := Loop.asleep.inj sleeps
      exact timely budget has
    · intro budget checks awake
      exact absurd ⟨_, _, rfl⟩ awake
  | watchdogLoop =>
    have has : b.watchdog.lease = some lease := by
      have arming : b.watchdog = .arming lease := arming
      rw [arming]
      rfl
    apply healthy.watches
    · intro own due sleeps
      obtain ⟨rfl, rfl⟩ := Loop.asleep.inj sleeps
      omega
    · intro own same
      obtain rfl := Option.some.inj same
      exact positive
    · intro own same
      obtain rfl := Option.some.inj same
      exact healthy.covered _ has
    · intro own checks
      rcases checks with checking | asleep
      · cases checking
      · have due := (Loop.asleep.inj asleep).2
        omega

theorem wake (healthy : Healthy b) (tier : Tier) : Healthy (b.step (.wake tier)) := by
  simp only [Background.step]
  cases tier with
  | heartbeatLoop =>
    cases loop : b.heartbeat with
    | asleep lease due =>
      have positive := healthy.positive .heartbeatLoop lease (by simp [Background.loop, loop, Loop.lease])
      by_cases fires : due ≤ b.now
      · simp only [Background.put, Background.loop, loop, Loop.woken, if_pos fires]
        apply healthy.beats (by simp) (by simp [Loop.Sleeps])
        · intro own has
          obtain rfl := Option.some.inj has
          exact positive
        · simp
      · simp only [Background.put, Background.loop, loop, Loop.woken, if_neg fires]
        rw [← loop]
        exact healthy
    | absent | spawned | arming | beating | checking | returned =>
      simp only [Background.put, Background.loop, loop, Loop.woken]
      rw [← loop]
      exact healthy
  | watchdogLoop =>
    cases loop : b.watchdog with
    | asleep lease due =>
      have has : b.watchdog.lease = some lease := by rw [loop]; rfl
      have positive := healthy.positive .watchdogLoop lease has
      by_cases fires : due ≤ b.now
      · simp only [Background.put, Background.loop, loop, Loop.woken, if_pos fires]
        have reached := healthy.asleep .watchdogLoop lease due loop
        have now : due = b.now := Int.le_antisymm fires reached
        apply healthy.watches (by simp)
        · intro own same
          obtain rfl := Option.some.inj same
          exact positive
        · intro own same
          obtain rfl := Option.some.inj same
          exact healthy.covered _ has
        · intro own checks
          obtain rfl : lease = own := Option.some.inj checks.has
          exact healthy.within (.inr (by rw [loop, now]))
      · simp only [Background.put, Background.loop, loop, Loop.woken, if_neg fires]
        rw [← loop]
        exact healthy
    | absent | spawned | arming | beating | checking | returned =>
      simp only [Background.put, Background.loop, loop, Loop.woken]
      rw [← loop]
      exact healthy

theorem call (healthy : Healthy b) (op : Op) : Healthy (b.step (.call op)) := by
  have other (unchecked : ∀ lease, op ≠ .checkLease lease) :
      Healthy { b with session := b.session.after op b.now } := by
    obtain ⟨untripped, dated⟩ := b.session.after_spec b.now unchecked
    exact healthy.after (untripped.trans healthy.untripped) dated
  cases op with
  | checkLease lease => exact healthy
  | sessionID | state | setState | keptAlive | reconciled | timeNow | unary => exact other (by simp)

/-- Where a loop takes its budget, which is of the interval then in force. -/
theorem spawn (healthy : Healthy b) {leaseTimeout : Int}
    (timely : Timely b (.spawnLeaseWatchdog leaseTimeout)) :
    Healthy (b.step (.spawnLeaseWatchdog leaseTimeout)) := by
  simp only [Background.step]
  split
  case isFalse => exact healthy
  apply healthy.watches
  · simp
  · intro lease has
    obtain rfl := Option.some.inj has
    exact b.session.leaseBudget_pos leaseTimeout
  · intro lease has own due sleeping
    obtain rfl := Option.some.inj has
    exact timely own due sleeping
  · intro lease checks
    rcases checks with checking | asleep
    · cases checking
    · cases asleep

theorem start (healthy : Healthy b) : Healthy (b.step .startHeartbeat) := by
  simp only [Background.step]
  split
  case isFalse => exact healthy
  exact healthy.beats (by simp) (by simp [Loop.Sleeps]) (by simp [Loop.lease]) (by simp)

theorem enter (healthy : Healthy b) : Healthy (b.step .enterHeartbeat) := by
  simp only [Background.step]
  split
  case isFalse => exact healthy
  apply healthy.beats (by simp) (by simp [Loop.Sleeps])
  · intro lease has
    obtain rfl := Option.some.inj has
    exact b.session.leaseBudget_pos 0
  · simp

theorem keepAlive (healthy : Healthy b) (heartbeatIntervalMS : UInt32) :
    Healthy (b.step (.keepAlive heartbeatIntervalMS)) := by
  simp only [Background.step]
  split
  case h_2 => exact healthy
  rename_i lease beating
  have positive := healthy.positive .heartbeatLoop lease
    (by rw [Background.loop, beating]; rfl)
  have unchecked (budget : Int) : Op.keptAlive heartbeatIntervalMS ≠ .checkLease budget := by simp
  obtain ⟨untripped, dated⟩ := b.session.after_spec b.now unchecked
  apply (healthy.after (untripped.trans healthy.untripped) dated).beats (by simp) (by simp [Loop.Sleeps])
  · intro own has
    obtain rfl := Option.some.inj has
    exact positive
  · intro own _
    rfl

/-- A check finds the budget kept: that of the heartbeat right after its `KeepAlive`, and that of
the watchdog because the next one is on time. -/
theorem check (healthy : Healthy b) (tier : Tier) : Healthy (b.step (.check tier)) := by
  simp only [Background.step]
  split
  case h_2 => exact healthy
  rename_i lease checking
  have positive := healthy.positive tier lease (by rw [checking]; rfl)
  have within : b.now ≤ b.session.lastOK + lease := by
    cases tier with
    | heartbeatLoop =>
      have beaten := healthy.beaten lease checking
      omega
    | watchdogLoop => exact healthy.within (.inl checking)
  simp only [Background.check,
    Session.checkLease_within healthy.untripped positive.le within]
  cases tier with
  | heartbeatLoop =>
    apply healthy.beats (by simp) (by simp [Loop.Sleeps])
    · intro own has
      obtain rfl := Option.some.inj has
      exact positive
    · simp
  | watchdogLoop =>
    have has : b.watchdog.lease = some lease := by
      have checking : b.watchdog = .checking lease := checking
      rw [checking]
      rfl
    apply healthy.watches
    · simp
    · intro own same
      obtain rfl := Option.some.inj same
      exact positive
    · intro own same
      obtain rfl := Option.some.inj same
      exact healthy.covered _ has
    · intro own checks
      rcases checks with checking | asleep
      · cases checking
      · cases asleep

theorem step (healthy : Healthy b) (happening : Happening) (timely : Timely b happening) :
    Healthy (b.step happening) := by
  cases happening with
  | elapse time => exact healthy.elapse timely
  | call op => exact healthy.call op
  | startHeartbeat => exact healthy.start
  | enterHeartbeat => exact healthy.enter
  | spawnLeaseWatchdog leaseTimeout => exact healthy.spawn timely
  | arm tier => exact healthy.arm timely
  | wake tier => exact healthy.wake tier
  | keepAlive heartbeatIntervalMS => exact healthy.keepAlive heartbeatIntervalMS
  | check tier => exact healthy.check tier

theorem run {happenings : List Happening} (healthy : Healthy b)
    (timely : Runs.Along Background.step Timely b happenings) :
    Healthy (happenings.foldl Background.step b) := by
  induction happenings generalizing b with
  | nil => exact healthy
  | cons happening rest ih => exact ih (healthy.step happening timely.1) timely.2

end Healthy

/-- Both timers fire at once and the reply to the heartbeat negotiates an interval: the steps at
that instant, the heartbeat first. -/
def renegotiated (heartbeatIntervalMS : UInt32) : List Happening :=
  [.wake .heartbeatLoop, .keepAlive heartbeatIntervalMS, .check .heartbeatLoop, .arm .heartbeatLoop,
    .wake .watchdogLoop, .check .watchdogLoop, .arm .watchdogLoop]

/-- Both timers fire at once again, the watchdog first. -/
def overtaken (interval : Nat) : List Happening :=
  [.elapse interval, .wake .watchdogLoop, .check .watchdogLoop]

theorem heartbeatInterval_small (s : Session) : s.heartbeatInterval < 2 ^ 63 := by
  have small := s.heartbeatIntervalMS.toNat_lt
  unfold Session.heartbeatInterval heartbeatFloor millisecond
  dsimp only
  split <;> omega

namespace Background

variable (session : Session) (now lease : Int) (beside : Loop)

theorem wake_heartbeat : step ⟨session, now, .asleep lease now, beside⟩ (.wake .heartbeatLoop) =
    ⟨session, now, .beating lease, beside⟩ := by
  simp [step, put, loop, Loop.woken]

theorem wake_watchdog : step ⟨session, now, beside, .asleep lease now⟩ (.wake .watchdogLoop) =
    ⟨session, now, beside, .checking lease⟩ := by
  simp [step, put, loop, Loop.woken]

theorem keepAlive_heartbeat (heartbeatIntervalMS : UInt32) :
    step ⟨session, now, .beating lease, beside⟩ (.keepAlive heartbeatIntervalMS) =
      ⟨session.after (.keptAlive heartbeatIntervalMS) now, now, .checking lease, beside⟩ := rfl

theorem arm_heartbeat : step ⟨session, now, .arming lease, beside⟩ (.arm .heartbeatLoop) =
    ⟨session, now, .asleep lease (now + session.heartbeatInterval), beside⟩ := rfl

theorem arm_watchdog : step ⟨session, now, beside, .arming lease⟩ (.arm .watchdogLoop) =
    ⟨session, now, beside, .asleep lease (now + session.heartbeatInterval)⟩ := rfl

variable {session now lease}

theorem check_heartbeat (untripped : session.leaseTripped = false) (positive : 0 < lease)
    (fresh : session.lastOK = now) :
    step ⟨session, now, .checking lease, beside⟩ (.check .heartbeatLoop) =
      ⟨session, now, .arming lease, beside⟩ := by
  have within : now ≤ session.lastOK + lease := by omega
  simp [step, put, loop, check, Session.checkLease_within untripped positive.le within]

theorem check_watchdog (untripped : session.leaseTripped = false) (positive : 0 < lease)
    (fresh : session.lastOK = now) :
    step ⟨session, now, beside, .checking lease⟩ (.check .watchdogLoop) =
      ⟨session, now, beside, .arming lease⟩ := by
  have within : now ≤ session.lastOK + lease := by omega
  simp [step, put, loop, check, Session.checkLease_within untripped positive.le within]

theorem elapse_both {own : Int} (time : Nat) :
    step ⟨session, now, .asleep own (now + time), .asleep lease (now + time)⟩ (.elapse time) =
      ⟨session, now + time, .asleep own (now + time), .asleep lease (now + time)⟩ := by
  simp [step, Loop.lets]

/-- A check trips a session that is live once the budget has lapsed. -/
theorem check_lapsed (untripped : session.leaseTripped = false)
    (live : IsTerminal session.state = false) (lapsed : lease < since now session.lastOK) :
    (step ⟨session, now, beside, .checking lease⟩ (.check .watchdogLoop)).session.leaseTripped =
      true := by
  simp [step, put, loop, check, Session.checkLease, untripped, live, lapsed]

end Background

open Background in
theorem renegotiated_eq {session : Session} (untripped : session.leaseTripped = false) (now : Int)
    {own lease : Int} (positive : 0 < own ∧ 0 < lease) (heartbeatIntervalMS : UInt32)
    {kept : Session} (keeps : session.after (.keptAlive heartbeatIntervalMS) now = kept) :
    (renegotiated heartbeatIntervalMS).foldl step ⟨session, now, .asleep own now, .asleep lease now⟩ =
      ⟨kept, now, .asleep own (now + kept.heartbeatInterval),
        .asleep lease (now + kept.heartbeatInterval)⟩ := by
  have fresh : kept.lastOK = now := by rw [← keeps]; rfl
  have still : kept.leaseTripped = false := by rw [← keeps]; exact untripped
  simp only [renegotiated, List.foldl_cons, List.foldl_nil]
  rw [wake_heartbeat, keepAlive_heartbeat, keeps, check_heartbeat _ still positive.1 fresh, arm_heartbeat,
    wake_watchdog, check_watchdog _ still positive.2 fresh, arm_watchdog]

open Background in
/-- A reply that negotiates more than the budget of the watchdog lets it trip the session, whose
every `KeepAlive` succeeds: the watchdog has only to look first when both timers fire at once. -/
theorem longer_interval_trips {session : Session} (untripped : session.leaseTripped = false)
    (live : IsTerminal session.state = false) (now : Int) {own lease : Int}
    (positive : 0 < own ∧ 0 < lease) {heartbeatIntervalMS : UInt32}
    (longer : lease < (session.after (.keptAlive heartbeatIntervalMS) now).heartbeatInterval) :
    ∃ interval, ((renegotiated heartbeatIntervalMS ++ overtaken interval).foldl step
      ⟨session, now, .asleep own now, .asleep lease now⟩).session.leaseTripped = true := by
  obtain ⟨kept, keeps⟩ : ∃ kept, session.after (.keptAlive heartbeatIntervalMS) now = kept := ⟨_, rfl⟩
  rw [keeps] at longer
  have later := kept.heartbeatInterval_pos
  have small := heartbeatInterval_small kept
  obtain ⟨gap, interval⟩ := Int.eq_ofNat_of_zero_le later.le
  have lapsed : lease < since (now + gap) kept.lastOK := by
    have fresh : kept.lastOK = now := by rw [← keeps]; rfl
    rw [fresh]
    unfold since
    omega
  refine ⟨gap, ?_⟩
  rw [List.foldl_append, renegotiated_eq untripped now positive heartbeatIntervalMS keeps, interval]
  simp only [overtaken, List.foldl_cons, List.foldl_nil]
  rw [elapse_both, wake_watchdog]
  apply check_lapsed
  · rw [← keeps]
    exact untripped
  · rw [← keeps]
    exact live
  · exact lapsed

/-- No check of either loop trips a session whose next `KeepAlive` always falls due within the
budget that the watchdog took. -/
theorem healthy_never_trips {b : Background} (attached : Attached b) (run : List Happening)
    (timely : Runs.Along Background.step Timely b run) :
    (run.foldl Background.step b).session.leaseTripped = false :=
  (attached.healthy.run timely).untripped

/-- A session attached with an interval of five seconds. -/
def attachedAt5s : Background :=
  ⟨{ sessionID := [], state := StateActive, heartbeatIntervalMS := 5000, snapshotSequence := 0,
     lastOK := 0, leaseTripped := false }, 0, .absent, .absent⟩

theorem attachedAt5s_attached : Attached attachedAt5s := by
  refine ⟨rfl, ?_, rfl, rfl⟩
  decide

/-- Both loops are started at once, and sleep until both timers fire. -/
def started : List Happening :=
  [.startHeartbeat, .enterHeartbeat, .arm .heartbeatLoop, .spawnLeaseWatchdog 0, .arm .watchdogLoop,
    .elapse 5000000000]

theorem healthy_never_trips_renegotiated :
    ((started ++ renegotiated 15000).foldl Background.step
      attachedAt5s).session.leaseTripped = false := by
  apply healthy_never_trips attachedAt5s_attached
  decide

/-- The host renegotiates 60 seconds over the 5 that the budget is of. -/
theorem healthy_trips_renegotiated : Attached attachedAt5s ∧
    ((started ++ renegotiated 60000 ++ overtaken 60000000000).foldl Background.step
      attachedAt5s).session.leaseTripped = true := by
  refine ⟨attachedAt5s_attached, ?_⟩
  decide

end LongTrader.Sdk.Go
