import LongTrader.Relay.Wallet
import Mathlib.Algebra.Order.Field.Rat
import Mathlib.Tactic.Linarith
import Mathlib.Tactic.NormNum
import Mathlib.Tactic.Ring

/-! The aligner of the balances of two venues: the keys of its transfers over the restarts of its process,
and what becomes of the transfers at the venue. -/

namespace LongTrader.Strategy.BalanceAlign

open Relay

/-- Which of the two venues a transfer goes out of. -/
inductive Side where
  | primary
  | hedge
  deriving DecidableEq

def Side.label : Side → String
  | .primary => "primary"
  | .hedge => "hedge"

def Side.other : Side → Side
  | .primary => .hedge
  | .hedge => .primary

/-- An attempt at a transfer. -/
structure Attempt where
  exchange : ExchangeId
  asset : String
  amount : Decimal
  source : Side
  instanceId : Nat
  seq : Nat
  deriving DecidableEq

instance : Nonempty Attempt := ⟨⟨⟨"", ""⟩, "", ⟨0, 0⟩, .primary, 0, 0⟩⟩

/-- `BalanceAlign::next_attempt_key`. -/
def attemptKey (asset : String) (source : Side) (instanceId seq : Nat) : String :=
  "balance-align:" ++ asset ++ ":" ++ source.label ++ ":" ++ source.other.label ++ ":" ++ toString instanceId ++ "-" ++
    toString seq

def Attempt.key (attempt : Attempt) : String :=
  attemptKey attempt.asset attempt.source attempt.instanceId attempt.seq

/-- The call of an attempt, when the venue's clock shows `now`. -/
def Attempt.call (attempt : Attempt) (now : Int) : TransferCall :=
  ⟨now, attempt.exchange, attempt.asset, attempt.amount, attempt.source.other.label, attempt.key⟩

/-- A strategy that runs; `due` is when its next cycle may be at the earliest. -/
structure Aligner where
  instanceId : Nat
  attempt : Nat
  due : Nat

/-- A process: `INSTANCE_SEQ`, the aligners it runs, and when it was started. -/
structure Process where
  instanceSeq : Nat
  aligners : List Aligner
  started : Nat

/-- What happens on a host: a process takes the place of another, it builds a strategy, or a cycle of one of
its strategies makes an attempt. The times are of the wall clock, in milliseconds. -/
inductive HostEvent where
  | restart (now : Nat)
  | build (now : Nat)
  | attempt (instanceId now : Nat) (exchange : ExchangeId) (asset : String) (amount : Decimal) (source : Side)

/-- A process and all the attempts so far. -/
structure Host where
  process : Process
  attempts : List Attempt

/-- The counter of one aligner goes up. -/
def Aligner.advance (instanceId now : Nat) (aligner : Aligner) : Aligner :=
  if aligner.instanceId = instanceId then { aligner with attempt := aligner.attempt + 1, due := now + 1 }
  else aligner

def Host.start (now : Nat) : Host := ⟨⟨0, [], now⟩, []⟩

def Host.step (host : Host) : HostEvent → Host
  | .restart now => { host with process := ⟨0, [], now⟩ }
  | .build now => { host with process := { host.process with
      instanceSeq := host.process.instanceSeq + 1
      aligners := host.process.aligners ++ [⟨host.process.instanceSeq, now, now⟩] } }
  | .attempt instanceId now exchange asset amount source =>
    match host.process.aligners.find? fun aligner => aligner.instanceId = instanceId with
    | none => host
    | some aligner =>
      { process := { host.process with aligners := host.process.aligners.map (Aligner.advance instanceId now) }
        attempts := host.attempts ++ [⟨exchange, asset, amount, source, aligner.instanceId, aligner.attempt⟩] }

/-- The clock does not go back over a restart, and the cycles of a strategy are a millisecond apart: they
sleep for a second at least. -/
def Host.Timely (host : Host) : HostEvent → Prop
  | .restart now => host.process.started ≤ now ∧ ∀ aligner ∈ host.process.aligners, aligner.due ≤ now
  | .build now => host.process.started ≤ now
  | .attempt instanceId now .. =>
    ∀ aligner ∈ host.process.aligners, aligner.instanceId = instanceId → aligner.due ≤ now

/-- The hosts that a run can come to. -/
inductive Host.Reachable : Host → Prop
  | start (now : Nat) : Reachable (Host.start now)
  | step {host event} (before : Reachable host) (timely : host.Timely event) : Reachable (host.step event)

/-- The attempts are told apart by instance and counter: what an earlier process used is below the time at
which this one was started. -/
structure Host.Sound (host : Host) : Prop where
  distinct : (host.process.aligners.map Aligner.instanceId).Nodup
  numbered : ∀ aligner ∈ host.process.aligners, aligner.instanceId < host.process.instanceSeq
  seeded : ∀ aligner ∈ host.process.aligners, host.process.started ≤ aligner.attempt ∧ aligner.attempt ≤ aligner.due
  used : ∀ attempt ∈ host.attempts, attempt.seq < host.process.started ∨
    ∃ aligner ∈ host.process.aligners, aligner.instanceId = attempt.instanceId ∧ attempt.seq < aligner.attempt
  apart : (host.attempts.map fun attempt => (attempt.instanceId, attempt.seq)).Nodup

theorem Host.Sound.start (now : Nat) : (Host.start now).Sound where
  distinct := List.nodup_nil
  numbered _ member := by cases member
  seeded _ member := by cases member
  used _ member := by cases member
  apart := List.nodup_nil

theorem Host.Sound.restart {host : Host} (sound : host.Sound) {now : Nat} (timely : host.Timely (.restart now)) :
    (host.step (.restart now)).Sound where
  distinct := List.nodup_nil
  numbered _ member := by cases member
  seeded _ member := by cases member
  used attempt member := by
    left
    rcases sound.used attempt member with old | ⟨aligner, runs, _, below⟩
    · exact old.trans_le timely.1
    · exact below.trans_le ((sound.seeded aligner runs).2.trans (timely.2 aligner runs))
  apart := sound.apart

theorem Host.Sound.build {host : Host} (sound : host.Sound) {now : Nat} (timely : host.Timely (.build now)) :
    (host.step (.build now)).Sound where
  distinct := by
    simp only [Host.step, List.map_append, List.map_cons, List.map_nil]
    rw [List.nodup_append]
    refine ⟨sound.distinct, List.nodup_singleton _, ?_⟩
    intro old member new only
    obtain ⟨aligner, runs, rfl⟩ := List.mem_map.mp member
    rw [List.mem_singleton.mp only]
    exact (sound.numbered aligner runs).ne
  numbered aligner member := by
    rcases List.mem_append.mp member with old | new
    · exact (sound.numbered aligner old).trans (Nat.lt_succ_self _)
    · rw [List.mem_singleton.mp new]
      exact Nat.lt_succ_self _
  seeded aligner member := by
    rcases List.mem_append.mp member with old | new
    · exact sound.seeded aligner old
    · rw [List.mem_singleton.mp new]
      exact ⟨timely, le_rfl⟩
  used attempt member := by
    rcases sound.used attempt member with old | ⟨aligner, runs, same, below⟩
    · exact .inl old
    · exact .inr ⟨aligner, List.mem_append_left _ runs, same, below⟩
  apart := sound.apart

/-- Of two aligners with one instance id there is only one. -/
theorem Host.Sound.eq_of_instance {host : Host} (sound : host.Sound) {first second : Aligner}
    (one : first ∈ host.process.aligners) (two : second ∈ host.process.aligners)
    (same : first.instanceId = second.instanceId) : first = second :=
  List.inj_on_of_nodup_map sound.distinct one two same

theorem Aligner.advance_instanceId (instanceId now : Nat) (aligner : Aligner) :
    (aligner.advance instanceId now).instanceId = aligner.instanceId := by
  rw [Aligner.advance]
  split <;> rfl

theorem Aligner.le_advance (instanceId now : Nat) (aligner : Aligner) :
    aligner.attempt ≤ (aligner.advance instanceId now).attempt := by
  rw [Aligner.advance]
  split
  · exact Nat.le_succ _
  · exact le_rfl

theorem Host.Sound.attempt {host : Host} (sound : host.Sound) {instanceId now : Nat} {exchange : ExchangeId}
    {asset : String} {amount : Decimal} {source : Side}
    (timely : host.Timely (.attempt instanceId now exchange asset amount source)) :
    (host.step (.attempt instanceId now exchange asset amount source)).Sound := by
  rw [Host.step]
  cases found : host.process.aligners.find? fun aligner => aligner.instanceId = instanceId with
  | none => exact sound
  | some aligner =>
    have runs := List.mem_of_find?_eq_some found
    have named : aligner.instanceId = instanceId := by simpa using List.find?_some found
    refine ⟨?_, ?_, ?_, ?_, ?_⟩
    · have ids : Aligner.instanceId ∘ Aligner.advance instanceId now = Aligner.instanceId :=
        funext fun other => other.advance_instanceId instanceId now
      rw [List.map_map, ids]
      exact sound.distinct
    · intro other member
      obtain ⟨before, was, rfl⟩ := List.mem_map.mp member
      rw [before.advance_instanceId]
      exact sound.numbered before was
    · intro other member
      obtain ⟨before, was, rfl⟩ := List.mem_map.mp member
      obtain ⟨seed, ready⟩ := sound.seeded before was
      refine ⟨seed.trans (before.le_advance instanceId now), ?_⟩
      rw [Aligner.advance]
      split
      · rename_i same
        exact Nat.succ_le_succ (ready.trans (timely before was same))
      · exact ready
    · intro old member
      rcases List.mem_append.mp member with earlier | fresh
      · rcases sound.used old earlier with past | ⟨other, was, same, below⟩
        · exact .inl past
        · exact .inr ⟨_, List.mem_map_of_mem was, (other.advance_instanceId instanceId now).trans same,
            below.trans_le (other.le_advance instanceId now)⟩
      · rw [List.mem_singleton.mp fresh]
        refine .inr ⟨_, List.mem_map_of_mem runs, aligner.advance_instanceId instanceId now, ?_⟩
        rw [Aligner.advance, if_pos named]
        exact Nat.lt_succ_self _
    · rw [List.map_append, List.nodup_append]
      refine ⟨sound.apart, List.nodup_singleton _, ?_⟩
      intro pair member other only same
      obtain ⟨old, earlier, rfl⟩ := List.mem_map.mp member
      have both : (old.instanceId, old.seq) = (aligner.instanceId, aligner.attempt) :=
        same.trans (List.mem_singleton.mp only)
      obtain ⟨ids, seqs⟩ := Prod.mk.inj both
      -- what the counter shows was not used before, neither by an earlier process nor in this one
      rcases sound.used old earlier with past | ⟨user, was, here, below⟩
      · have seed := (sound.seeded aligner runs).1
        omega
      · rw [sound.eq_of_instance was runs (here.trans ids)] at below
        omega

theorem Host.Reachable.sound {host : Host} (reachable : host.Reachable) : host.Sound := by
  induction reachable with
  | start now => exact Host.Sound.start now
  | @step host event _ timely sound =>
    cases event with
    | restart now => exact sound.restart timely
    | build now => exact sound.build timely
    | attempt instanceId now exchange asset amount source => exact sound.attempt timely

theorem digits_toString (number : Nat) : (toString number).toList = Nat.toDigits 10 number := by
  rw [Nat.toString_eq_ofList_toDigits, String.toList_ofList]

theorem not_mem_toDigits {mark : Char} (noDigit : mark.isDigit = false) (number : Nat) :
    mark ∉ Nat.toDigits 10 number := by
  intro member
  have digit := Nat.isDigit_of_mem_toDigits (by decide) (by decide) member
  rw [noDigit] at digit
  cases digit

theorem toDigits_injective {first second : Nat} (same : Nat.toDigits 10 first = Nat.toDigits 10 second) :
    first = second := by
  have values := congrArg (fun digits => Nat.ofDigitChars 10 digits 0) same
  simpa [Nat.ofDigitChars_ten_toDigits] using values

/-- A text is split at a mark in one way only, if the mark is not in what is behind it. -/
theorem mark_inj {mark : Char} {before after other rest : List Char} (clean : mark ∉ after) (plain : mark ∉ rest)
    (same : before ++ mark :: after = other ++ mark :: rest) : before = other ∧ after = rest := by
  rcases List.append_eq_append_iff.mp same with ⟨between, rfl, tail⟩ | ⟨between, rfl, tail⟩
  · cases between with
    | nil => exact ⟨(List.append_nil _).symm, (List.cons.inj tail).2⟩
    | cons c between =>
      have mark_in : mark ∈ after := by
        rw [(List.cons.inj tail).2]
        exact List.mem_append_right _ List.mem_cons_self
      exact absurd mark_in clean
  · cases between with
    | nil => exact ⟨List.append_nil _, (List.cons.inj tail).2.symm⟩
    | cons c between =>
      have mark_in : mark ∈ rest := by
        rw [(List.cons.inj tail).2]
        exact List.mem_append_right _ List.mem_cons_self
      exact absurd mark_in plain

theorem attemptKey_toList (asset : String) (source : Side) (instanceId seq : Nat) :
    (attemptKey asset source instanceId seq).toList =
      (("balance-align:" ++ asset ++ ":" ++ source.label ++ ":" ++ source.other.label).toList ++
        ':' :: Nat.toDigits 10 instanceId) ++ '-' :: Nat.toDigits 10 seq := by
  have mark : (":" : String).toList = [':'] := by simp
  have dash : ("-" : String).toList = ['-'] := by simp
  show ("balance-align:" ++ asset ++ ":" ++ source.label ++ ":" ++ source.other.label ++ ":" ++
    toString instanceId ++ "-" ++ toString seq).toList = _
  simp only [String.toList_append, digits_toString, mark, dash, List.append_assoc, List.cons_append, List.nil_append]

/-- A key tells the instance and its counter, whatever the asset is called. -/
theorem attemptKey_inj {asset other : String} {source sink : Side} {first second later last : Nat}
    (same : attemptKey asset source first later = attemptKey other sink second last) :
    first = second ∧ later = last := by
  have texts := congrArg String.toList same
  rw [attemptKey_toList, attemptKey_toList] at texts
  obtain ⟨heads, seqs⟩ := mark_inj (not_mem_toDigits rfl _) (not_mem_toDigits rfl _) texts
  obtain ⟨_, ids⟩ := mark_inj (not_mem_toDigits rfl _) (not_mem_toDigits rfl _) heads
  exact ⟨toDigits_injective ids, toDigits_injective seqs⟩

theorem attemptKey_head (asset : String) (source : Side) (instanceId seq : Nat) :
    (attemptKey asset source instanceId seq).toList.head? = some 'b' := by
  rw [attemptKey_toList]
  simp

/-- A key is not empty, and not one that the venue would assign. -/
theorem attemptKey_own (asset : String) (source : Side) (instanceId seq : Nat) :
    attemptKey asset source instanceId seq ≠ "" ∧
      ∀ drawn, attemptKey asset source instanceId seq ≠ transferId drawn := by
  have head := attemptKey_head asset source instanceId seq
  constructor
  · intro empty
    rw [empty] at head
    cases head
  · intro drawn same
    rw [same] at head
    simp [transferId] at head

/-- Attempts of one host with one key are the same attempt. -/
theorem Host.Sound.eq_of_key {host : Host} (sound : host.Sound) {first second : Attempt}
    (one : first ∈ host.attempts) (two : second ∈ host.attempts) (same : first.key = second.key) :
    first = second := by
  obtain ⟨ids, seqs⟩ := attemptKey_inj same
  exact List.inj_on_of_nodup_map sound.apart one two (Prod.ext ids seqs)

section Venue

variable {ops : DecimalOps} {connect : Connect} {checks : Bool} {closed : String}

/-- The transfers of a log that go back to an attempt of a host. -/
def Host.Sends (host : Host) (attempt : Attempt) (log : List (Sent × Option TransferReceipt))
    (answer : Sent → Option TransferReceipt → Prop) : Prop :=
  attempt ∈ host.attempts ∧ ∃ sent told, (sent, told) ∈ log ∧ (∃ now, sent.call = attempt.call now) ∧ answer sent told

/-- However often each of the attempts of a host is sent, through whatever workers and whichever exchanges fail,
and over however many restarts: the funds that have moved are those of attempts, each of them once. Those that
were answered have moved, and those that have moved were answered or an exchange of theirs failed. -/
theorem attempts_move_once (lossless : ops.Lossless) {host : Host} (reachable : host.Reachable)
    {events : List (Service.Event Sent WalletUse)}
    (sent : ∀ sent, .call sent ∈ events → (∃ attempt ∈ host.attempts, ∃ now, sent.call = attempt.call now) ∧
      (transferTerms ops MockWallet.Sound).asks sent.call)
    {log : List (Sent × Option TransferReceipt)} {wallet : MockWallet}
    (happened : Service.history (reached ops connect checks closed (mockTransfer ops))
      (fun use wallet => wallet.use use) events ⟨1, [], [], []⟩ = (log, wallet)) :
    ∃ moved : List Attempt, moved.Nodup ∧
      wallet.transfers = moved.map (fun attempt => (attempt.asset, attempt.amount, attempt.source.other.label)) ∧
      (∀ attempt, host.Sends attempt log (fun _ told => told.isSome = true) → attempt ∈ moved) ∧
      ∀ attempt ∈ moved, host.Sends attempt log (fun sent told => told.isSome = true ∨ sent.fails = true) := by
  have sound := reachable.sound
  obtain ⟨calls, known⟩ := reached_known lossless (fun call member => (sent call member).2) happened
  have settled := known.settled
  have made : ∀ call ∈ calls, ∃ attempt, host.Sends attempt log
      (fun sent told => told.isSome = true ∨ sent.fails = true) ∧ ∃ now, call = attempt.call now := by
    intro call member
    obtain ⟨row, logged, rfl⟩ := List.mem_map.mp (settled.sent.subset member)
    obtain ⟨within, may⟩ := List.mem_filter.mp logged
    have whole : (Service.history _ _ _ _).1 = log := congrArg Prod.fst happened
    obtain ⟨attempt, asked, now, again⟩ := (sent row.1 (Service.mem_history (whole.symm ▸ within))).1
    exact ⟨attempt, ⟨asked, row.1, row.2, within, ⟨now, again⟩, by simpa using may⟩, now, again⟩
  choose! attempt sends time again using made
  have key : ∀ call ∈ calls, call.clientTransferId = (attempt call).key := fun call member =>
    congrArg TransferCall.clientTransferId (again call member)
  have keys : calls.map TransferCall.clientTransferId = (calls.map attempt).map Attempt.key := by
    rw [List.map_map]
    exact List.map_congr_left key
  refine ⟨calls.map attempt, ?_, ?_, ?_, ?_⟩
  · apply List.Nodup.of_map Attempt.key
    rw [← keys, List.nodup_iff_count_le_one]
    intro id
    by_cases blank : id = ""
    · rw [List.count_eq_zero_of_not_mem]
      · exact Nat.zero_le 1
      · rw [keys, List.map_map]
        intro member
        obtain ⟨call, _, same⟩ := List.mem_map.mp member
        exact absurd (same.trans blank) (attemptKey_own _ _ _ _).1
    · exact settled.once id blank
  · rw [settled.transfers, List.map_map]
    apply List.map_congr_left
    intro call member
    have same := again call member
    exact congrArg (fun call : TransferCall => (call.asset, call.amount, call.destLabel)) same
  · intro one answered
    obtain ⟨asked, sent, told, within, ⟨now, same⟩, some_⟩ := answered
    obtain ⟨receipt, rfl⟩ := Option.isSome_iff_exists.mp some_
    have own := attemptKey_own one.asset one.source one.instanceId one.seq
    have named : sent.call.clientTransferId = one.key := congrArg TransferCall.clientTransferId same
    obtain ⟨call, member, here, _⟩ := settled.shown sent receipt within (named ▸ own.1) (named ▸ own.2)
    have keyed : (attempt call).key = one.key := (key call member).symm.trans (here.trans named)
    rw [← sound.eq_of_key (sends call member).1 asked keyed]
    exact List.mem_map_of_mem member
  · intro one member
    obtain ⟨call, moved, rfl⟩ := List.mem_map.mp member
    exact sends call moved

def mockPrimary : ExchangeId := ⟨"mock", ""⟩

/-- An attempt, and one of the same amount after the process was started again. -/
def firstAttempt : Attempt := ⟨mockPrimary, "USDT", ⟨100, 0⟩, .primary, 0, 1000⟩
def secondAttempt : Attempt := ⟨mockPrimary, "USDT", ⟨100, 0⟩, .primary, 0, 2001⟩

def restartedHost : Host := ⟨⟨1, [⟨0, 2002, 2002⟩], 2001⟩, [firstAttempt, secondAttempt]⟩

theorem restartedHost_reachable : restartedHost.Reachable := by
  have built : Host.Reachable ⟨⟨1, [⟨0, 1000, 1000⟩], 1000⟩, []⟩ :=
    @Host.Reachable.step (Host.start 1000) (.build 1000) (.start 1000) (Nat.le_refl 1000)
  have attempted : Host.Reachable ⟨⟨1, [⟨0, 1001, 1001⟩], 1000⟩, [firstAttempt]⟩ :=
    @Host.Reachable.step _ (.attempt 0 1000 mockPrimary "USDT" ⟨100, 0⟩ .primary) built (by simp [Host.Timely])
  have restarted : Host.Reachable ⟨⟨0, [], 2001⟩, [firstAttempt]⟩ :=
    @Host.Reachable.step _ (.restart 2001) attempted (by simp [Host.Timely])
  have rebuilt : Host.Reachable ⟨⟨1, [⟨0, 2001, 2001⟩], 2001⟩, [firstAttempt]⟩ :=
    @Host.Reachable.step _ (.build 2001) restarted (Nat.le_refl 2001)
  exact @Host.Reachable.step _ (.attempt 0 2001 mockPrimary "USDT" ⟨100, 0⟩ .primary) rebuilt
    (by simp [Host.Timely])

/-- The first attempt is served but not answered, and sent again; the second is sent once. -/
def attemptsSent : List (Service.Event Sent WalletUse) :=
  [.call ⟨firstAttempt.call 1000, [⟨.failed true "deadline exceeded", openWorker⟩]⟩,
    .call ⟨firstAttempt.call 1500, [⟨.answered, openWorker⟩]⟩,
    .call ⟨secondAttempt.call 2001, [⟨.answered, openWorker⟩]⟩]

def attemptsServed : List (Sent × Option TransferReceipt) × MockWallet :=
  Service.history (reached rustDecimal connectProtocol true "connection closed" (mockTransfer rustDecimal))
    (fun use wallet => wallet.use use) attemptsSent ⟨1, [], [], []⟩

theorem attemptsSent_asks : ∀ sent, .call sent ∈ attemptsSent →
    (∃ attempt ∈ restartedHost.attempts, ∃ now, sent.call = attempt.call now) ∧
      (transferTerms rustDecimal MockWallet.Sound).asks sent.call := by
  intro sent member
  have first : firstAttempt ∈ restartedHost.attempts := List.mem_cons_self
  have second : secondAttempt ∈ restartedHost.attempts := List.mem_cons_of_mem _ List.mem_cons_self
  rcases List.mem_cons.mp member with one | later
  · rw [Service.Event.call.inj one]
    exact ⟨⟨_, first, _, rfl⟩, ⟨by decide, by decide⟩, by decide⟩
  · rcases List.mem_pair.mp later with two | three
    · rw [Service.Event.call.inj two]
      exact ⟨⟨_, first, _, rfl⟩, ⟨by decide, by decide⟩, by decide⟩
    · rw [Service.Event.call.inj three]
      exact ⟨⟨_, second, _, rfl⟩, ⟨by decide, by decide⟩, by decide⟩

theorem attempts_move_once_restarted : ∃ moved : List Attempt, moved.Nodup ∧
    attemptsServed.2.transfers =
      moved.map (fun attempt => (attempt.asset, attempt.amount, attempt.source.other.label)) ∧
    (∀ attempt, restartedHost.Sends attempt attemptsServed.1 (fun _ told => told.isSome = true) →
      attempt ∈ moved) ∧
    ∀ attempt ∈ moved, restartedHost.Sends attempt attemptsServed.1
      (fun sent told => told.isSome = true ∨ sent.fails = true) :=
  @attempts_move_once rustDecimal connectProtocol true "connection closed" rustDecimal_lossless restartedHost
    restartedHost_reachable attemptsSent attemptsSent_asks attemptsServed.1 attemptsServed.2
    (Prod.eta attemptsServed).symm

end Venue

section Drift

/-- `worker.v1.Balance`, as far as the aligner reads it. -/
structure Balance where
  currency : String
  free : Option (Except DecimalConvertError ℚ)

def freeBalanceOf (balances : List Balance) (asset : String) : ℚ :=
  ((balances.find? fun balance => balance.currency = asset).bind fun balance =>
    balance.free.bind Except.toOption).getD 0

structure BalanceAlignConfig where
  asset : String
  primaryShare : ℚ
  threshold : ℚ

/-- How far the primary venue is from its share. -/
def BalanceAlignConfig.drift (config : BalanceAlignConfig) (primary hedge : ℚ) : ℚ :=
  primary - (primary + hedge) * config.primaryShare

/-- The transfer that a cycle of `BalanceAlign::tick` asks for, with the venue that it goes out of. -/
def BalanceAlignConfig.transfer (config : BalanceAlignConfig) (primary hedge : ℚ) : Option (ℚ × Side) :=
  let drift := config.drift primary hedge
  if |drift| < config.threshold ∨ primary + hedge = 0 then none
  else some (|drift|, if 0 < drift then .primary else .hedge)

/-- The balances that a cycle reads off the two snapshots. -/
def BalanceAlignConfig.tick (config : BalanceAlignConfig) (primary hedge : List Balance) : Option (ℚ × Side) :=
  config.transfer (freeBalanceOf primary config.asset) (freeBalanceOf hedge config.asset)

/-- The balances once a transfer has gone out that has not come in. -/
def sendOut : Option (ℚ × Side) → ℚ × ℚ → ℚ × ℚ
  | none, balances => balances
  | some (amount, .primary), (primary, hedge) => (primary - amount, hedge)
  | some (amount, .hedge), (primary, hedge) => (primary, hedge - amount)

/-- The balances after some cycles of which no transfer has come in yet. -/
def BalanceAlignConfig.inTransit (config : BalanceAlignConfig) : Nat → ℚ × ℚ → ℚ × ℚ
  | 0, balances => balances
  | cycles + 1, balances =>
    config.inTransit cycles (sendOut (config.transfer balances.1 balances.2) balances)

/-- The part of a drift that is left by a transfer that does not come in. -/
def BalanceAlignConfig.ratio (config : BalanceAlignConfig) (drift : ℚ) : ℚ :=
  if 0 < drift then config.primaryShare else 1 - config.primaryShare

structure BalanceAlignConfig.Proper (config : BalanceAlignConfig) : Prop where
  share : 0 ≤ config.primaryShare
  whole : config.primaryShare ≤ 1
  threshold : 0 < config.threshold

variable {config : BalanceAlignConfig}

theorem BalanceAlignConfig.Proper.ratio_mem (proper : config.Proper) (drift : ℚ) :
    0 ≤ config.ratio drift ∧ config.ratio drift ≤ 1 := by
  have share := proper.share
  have whole := proper.whole
  rw [BalanceAlignConfig.ratio]
  split
  · exact ⟨share, whole⟩
  · constructor <;> linarith

/-- Balances of nothing have no drift that is worth a transfer. -/
theorem BalanceAlignConfig.Proper.transfer_eq (proper : config.Proper) {primary hedge : ℚ} (some_ : 0 ≤ primary)
    (left : 0 ≤ hedge) : config.transfer primary hedge = if config.threshold ≤ |config.drift primary hedge| then
      some (|config.drift primary hedge|, if 0 < config.drift primary hedge then .primary else .hedge) else none := by
  rw [BalanceAlignConfig.transfer]
  by_cases worth : config.threshold ≤ |config.drift primary hedge|
  · rw [if_pos worth, if_neg]
    rintro (small | empty)
    · exact absurd worth (not_le.mpr small)
    · have none_ : primary = 0 ∧ hedge = 0 := by constructor <;> linarith
      rw [BalanceAlignConfig.drift, none_.1, none_.2, add_zero, zero_mul, sub_zero, abs_zero] at worth
      exact absurd worth (not_le.mpr proper.threshold)
  · rw [if_neg worth, if_pos (.inl (not_le.mp worth))]

/-- A transfer that does not come in leaves both balances covered, and a part of the drift. -/
theorem BalanceAlignConfig.Proper.sent (proper : config.Proper) {primary hedge : ℚ} (some_ : 0 ≤ primary)
    (left : 0 ≤ hedge) (worth : config.threshold ≤ |config.drift primary hedge|) :
    let after := sendOut (config.transfer primary hedge) (primary, hedge)
    0 ≤ after.1 ∧ 0 ≤ after.2 ∧
      config.drift after.1 after.2 = config.ratio (config.drift primary hedge) * config.drift primary hedge := by
  have share := proper.share
  have rest : 0 ≤ 1 - config.primaryShare := by linarith [proper.whole]
  have total : 0 ≤ primary + hedge := add_nonneg some_ left
  rw [proper.transfer_eq some_ left, if_pos worth]
  by_cases up : 0 < config.drift primary hedge
  · rw [if_pos up, abs_of_pos up, BalanceAlignConfig.ratio, if_pos up]
    refine ⟨?_, left, ?_⟩
    · have kept : primary - config.drift primary hedge = (primary + hedge) * config.primaryShare := by
        rw [BalanceAlignConfig.drift]
        ring
      show 0 ≤ primary - config.drift primary hedge
      rw [kept]
      exact mul_nonneg total share
    · simp only [sendOut, BalanceAlignConfig.drift]
      ring
  · rw [if_neg up, abs_of_nonpos (not_lt.mp up), BalanceAlignConfig.ratio, if_neg up]
    refine ⟨some_, ?_, ?_⟩
    · have kept : hedge - -config.drift primary hedge = (primary + hedge) * (1 - config.primaryShare) := by
        rw [BalanceAlignConfig.drift]
        ring
      show 0 ≤ hedge - -config.drift primary hedge
      rw [kept]
      exact mul_nonneg total rest
    · simp only [sendOut, BalanceAlignConfig.drift]
      ring

theorem BalanceAlignConfig.ratio_sent (config : BalanceAlignConfig) {drift : ℚ}
    (moves : config.ratio drift * drift ≠ 0) (share : 0 ≤ config.ratio drift) :
    config.ratio (config.ratio drift * drift) = config.ratio drift ∧
      (0 < config.ratio drift * drift ↔ 0 < drift) := by
  have positive : 0 < config.ratio drift := lt_of_le_of_ne share (left_ne_zero_of_mul moves).symm
  have sign : 0 < config.ratio drift * drift ↔ 0 < drift := mul_pos_iff_of_pos_left positive
  refine ⟨?_, sign⟩
  rw [BalanceAlignConfig.ratio]
  by_cases up : 0 < drift
  · rw [if_pos (sign.mpr up), BalanceAlignConfig.ratio, if_pos up]
  · rw [if_neg fun both => up (sign.mp both), BalanceAlignConfig.ratio, if_neg up]

/-- The aligner does not know of what is under way: while nothing comes in, each cycle sends the fixed part of
what the one before sent, down to the threshold, and never more than the venue has. -/
theorem sends_again_in_transit (proper : config.Proper) {primary hedge : ℚ} (some_ : 0 ≤ primary)
    (left : 0 ≤ hedge) (cycles : Nat) :
    let drift := config.drift primary hedge
    let now := config.inTransit cycles (primary, hedge)
    0 ≤ now.1 ∧ 0 ≤ now.2 ∧ config.transfer now.1 now.2 =
      if config.threshold ≤ config.ratio drift ^ cycles * |drift| then
        some (config.ratio drift ^ cycles * |drift|, if 0 < drift then .primary else .hedge)
      else none := by
  induction cycles generalizing primary hedge with
  | zero =>
    refine ⟨some_, left, ?_⟩
    simp only [pow_zero, one_mul]
    exact proper.transfer_eq some_ left
  | succ cycles ih =>
    obtain ⟨low, high⟩ := proper.ratio_mem (config.drift primary hedge)
    simp only [BalanceAlignConfig.inTransit]
    by_cases worth : config.threshold ≤ |config.drift primary hedge|
    · obtain ⟨first, second, after⟩ := proper.sent some_ left worth
      have later := ih first second
      simp only [after, abs_mul, abs_of_nonneg low] at later
      refine ⟨later.1, later.2.1, ?_⟩
      rw [later.2.2]
      rcases eq_or_ne (config.ratio (config.drift primary hedge) * config.drift primary hedge) 0 with gone | moves
      · have nothing : config.ratio (config.drift primary hedge) * |config.drift primary hedge| = 0 := by
          rcases mul_eq_zero.mp gone with none_ | none_
          · rw [none_, zero_mul]
          · rw [none_, abs_zero, mul_zero]
        have closed : ¬ config.threshold ≤ 0 := not_le.mpr proper.threshold
        rw [nothing, mul_zero, if_neg closed, pow_succ, mul_assoc, nothing, mul_zero, if_neg closed]
      · obtain ⟨same, sign⟩ := config.ratio_sent moves low
        simp only [same, sign, pow_succ, mul_assoc]
    · have still : sendOut (config.transfer primary hedge) (primary, hedge) = (primary, hedge) := by
        rw [proper.transfer_eq some_ left, if_neg worth]
        rfl
      have later := ih some_ left
      rw [still]
      refine ⟨later.1, later.2.1, ?_⟩
      have below : ∀ count, ¬ config.threshold ≤
          config.ratio (config.drift primary hedge) ^ count * |config.drift primary hedge| := by
        intro count more
        exact worth (more.trans (mul_le_of_le_one_left (abs_nonneg _) (pow_le_one₀ low high)))
      rw [later.2.2, if_neg (below _), if_neg (below _)]

/-- An even split of the balances. -/
def evenSplit : BalanceAlignConfig := ⟨"USDT", 1 / 2, 1⟩

theorem sends_again_in_transit_even :
    let drift := evenSplit.drift 100 0
    let now := evenSplit.inTransit 3 (100, 0)
    0 ≤ now.1 ∧ 0 ≤ now.2 ∧ evenSplit.transfer now.1 now.2 =
      if evenSplit.threshold ≤ evenSplit.ratio drift ^ 3 * |drift| then
        some (evenSplit.ratio drift ^ 3 * |drift|, if 0 < drift then .primary else .hedge)
      else none :=
  sends_again_in_transit ⟨by norm_num [evenSplit], by norm_num [evenSplit], by norm_num [evenSplit]⟩ (by norm_num)
    (by norm_num) 3

end Drift

end LongTrader.Strategy.BalanceAlign
