import LongTrader.Runs
import LongTrader.Strategy.Order
import Mathlib.Data.Finset.Insert
import Mathlib.Data.List.Nodup

/-! The deposit sweep: each completed deposit of the ledger is transferred to the destination account,
and its id is remembered once its transfer has succeeded. Amounts are only compared. -/

namespace LongTrader.Strategy.DepositTransfer

structure DepositTransferConfig (P : Type) where
  exchangeId : ExchangeId
  destLabel : String
  ignoreBelow : P

/-- An entry of the ledger, as far as the sweep reads it. -/
structure LedgerEntry (P : Type) where
  id : String
  currency : String
  amount : P
  completed : Bool
  deriving DecidableEq, Repr

/-- What the sweep asks of `WalletGateway::transfer`. -/
structure Transfer (P : Type) where
  exchangeId : ExchangeId
  asset : String
  amount : P
  destLabel : String
  clientTransferId : String
  deriving DecidableEq, Repr

/-- An entry as a read of the ledger lists it, and what the venue says to its transfer when it is asked,
if it refuses it. -/
structure Listed (P : Type) where
  entry : LedgerEntry P
  refusal : Option PortError

/-- The wallet during a tick. -/
structure WalletGateway (P : Type) where
  listLedgerEntries : ExchangeId → String → String → Nat → Except PortError (List (Listed P))

structure Attempt (P : Type) where
  deposit : LedgerEntry P
  transfer : Transfer P
  accepted : Bool

/-- What a tick leaves: the ids that it remembers, the transfers that it has asked for, and its result. -/
structure Swept (P : Type) where
  seen : Finset String
  attempts : List (Attempt P)
  result : Except PortError Nat

variable {P : Type}

/-- Deposits of any currency. -/
def WalletGateway.fetchDeposits (wallet : WalletGateway P) (exchangeId : ExchangeId) (limit : Nat) :
    Except PortError (List (Listed P)) :=
  wallet.listLedgerEntries exchangeId "" "deposit" limit

def transferOf (config : DepositTransferConfig P) (entry : LedgerEntry P) : Transfer P where
  exchangeId := config.exchangeId
  asset := entry.currency
  amount := entry.amount
  destLabel := config.destLabel
  clientTransferId := "deposit-sweep:" ++ entry.id

variable [LinearOrder P] [Zero P]

/-- The loop of a tick. -/
def sweep (config : DepositTransferConfig P) (seen : Finset String) (transferred : Nat) :
    List (Listed P) → Swept P
  | [] => ⟨seen, [], .ok transferred⟩
  | listed :: rest =>
    if listed.entry.completed = false then sweep config seen transferred rest
    else if listed.entry.amount ≤ 0 then sweep config seen transferred rest
    else if listed.entry.amount < config.ignoreBelow then sweep config seen transferred rest
    else if listed.entry.id ∈ seen then sweep config seen transferred rest
    else
      let transfer := transferOf config listed.entry
      match listed.refusal with
      | some error => ⟨seen, [⟨listed.entry, transfer, false⟩], .error error⟩
      | none =>
        let swept := sweep config (insert listed.entry.id seen) (transferred + 1) rest
        { swept with attempts := ⟨listed.entry, transfer, true⟩ :: swept.attempts }

/-- `DepositTransfer::tick`. -/
def tick (config : DepositTransferConfig P) (seen : Finset String) (wallet : WalletGateway P) : Swept P :=
  match wallet.fetchDeposits config.exchangeId 50 with
  | .error error => ⟨seen, [], .error error⟩
  | .ok deposits => sweep config seen 0 deposits

/-- What the sweep is for. -/
structure Eligible (config : DepositTransferConfig P) (entry : LedgerEntry P) : Prop where
  completed : entry.completed = true
  positive : 0 < entry.amount
  worthwhile : config.ignoreBelow ≤ entry.amount

instance (config : DepositTransferConfig P) (entry : LedgerEntry P) : Decidable (Eligible config entry) :=
  decidable_of_iff (entry.completed = true ∧ 0 < entry.amount ∧ config.ignoreBelow ≤ entry.amount)
    ⟨fun ⟨completed, positive, worthwhile⟩ => ⟨completed, positive, worthwhile⟩,
      fun eligible => ⟨eligible.1, eligible.2, eligible.3⟩⟩

/-- The deposits of a list that are to be swept, each where it is listed first. -/
def due (config : DepositTransferConfig P) (seen : Finset String) : List (Listed P) → List (Listed P)
  | [] => []
  | listed :: rest =>
    if Eligible config listed.entry ∧ listed.entry.id ∉ seen then
      listed :: due config (insert listed.entry.id seen) rest
    else due config seen rest

section Loop

variable {config : DepositTransferConfig P} {seen : Finset String} {transferred : Nat}
  {listed : Listed P} {rest deposits : List (Listed P)}

theorem sweep_skips (idle : ¬ (Eligible config listed.entry ∧ listed.entry.id ∉ seen)) :
    sweep config seen transferred (listed :: rest) = sweep config seen transferred rest := by
  rw [sweep]
  by_cases pending : listed.entry.completed = false
  · rw [if_pos pending]
  rw [if_neg pending]
  by_cases nothing : listed.entry.amount ≤ 0
  · rw [if_pos nothing]
  rw [if_neg nothing]
  by_cases dust : listed.entry.amount < config.ignoreBelow
  · rw [if_pos dust]
  rw [if_neg dust, if_pos]
  by_contra unswept
  exact idle ⟨⟨by simpa using pending, not_le.mp nothing, not_lt.mp dust⟩, unswept⟩

theorem sweep_attempts (eligible : Eligible config listed.entry) (unswept : listed.entry.id ∉ seen) :
    sweep config seen transferred (listed :: rest) = match listed.refusal with
      | some error => ⟨seen, [⟨listed.entry, transferOf config listed.entry, false⟩], .error error⟩
      | none =>
        let swept := sweep config (insert listed.entry.id seen) (transferred + 1) rest
        { swept with attempts := ⟨listed.entry, transferOf config listed.entry, true⟩ :: swept.attempts } := by
  rw [sweep, if_neg (by simp [eligible.completed]), if_neg (not_le.mpr eligible.positive),
    if_neg (not_lt.mpr eligible.worthwhile), if_neg unswept]

/-- The ids whose transfers are accepted. -/
def acceptedIds (attempts : List (Attempt P)) : List String :=
  (attempts.filter (·.accepted)).map (·.deposit.id)

omit [LinearOrder P] [Zero P] in
@[simp] theorem acceptedIds_append (before after : List (Attempt P)) :
    acceptedIds (before ++ after) = acceptedIds before ++ acceptedIds after := by
  rw [acceptedIds, List.filter_append, List.map_append]
  rfl

omit [LinearOrder P] [Zero P] in
theorem acceptedIds_accepted (deposit : LedgerEntry P) (transfer : Transfer P) (attempts : List (Attempt P)) :
    acceptedIds (⟨deposit, transfer, true⟩ :: attempts) = deposit.id :: acceptedIds attempts := rfl

/-- A sweep asks for the deposits that it is for and does not remember, under their own keys. -/
theorem sweep_asks (config : DepositTransferConfig P) (seen : Finset String) (transferred : Nat)
    (deposits : List (Listed P)) :
    ∀ attempt ∈ (sweep config seen transferred deposits).attempts, Eligible config attempt.deposit ∧
      attempt.deposit.id ∉ seen ∧ attempt.transfer = transferOf config attempt.deposit := by
  induction deposits generalizing seen transferred with
  | nil => exact nofun
  | cons listed rest ih =>
    by_cases asks : Eligible config listed.entry ∧ listed.entry.id ∉ seen
    · rw [sweep_attempts asks.1 asks.2]
      cases listed.refusal with
      | some error => exact List.forall_mem_singleton.mpr ⟨asks.1, asks.2, rfl⟩
      | none =>
        refine List.forall_mem_cons.mpr ⟨⟨asks.1, asks.2, rfl⟩, fun attempt later => ?_⟩
        obtain ⟨eligible, fresh, own⟩ := ih _ _ attempt later
        exact ⟨eligible, fun earlier => fresh (Finset.mem_insert_of_mem earlier), own⟩
    · rw [sweep_skips asks]
      exact ih seen transferred

/-- The sweep remembers what it has transferred. -/
theorem mem_seen_sweep {id : String} : id ∈ (sweep config seen transferred deposits).seen ↔
    id ∈ seen ∨ id ∈ acceptedIds (sweep config seen transferred deposits).attempts := by
  induction deposits generalizing seen transferred with
  | nil => exact (or_iff_left List.not_mem_nil).symm
  | cons listed rest ih =>
    by_cases asks : Eligible config listed.entry ∧ listed.entry.id ∉ seen
    · rw [sweep_attempts asks.1 asks.2]
      cases listed.refusal with
      | some error => exact (or_iff_left List.not_mem_nil).symm
      | none =>
        dsimp only
        rw [ih, Finset.mem_insert, acceptedIds_accepted, List.mem_cons, or_assoc, or_left_comm]
    · rw [sweep_skips asks]
      exact ih

omit [LinearOrder P] [Zero P] in
theorem acceptedIds_asked {attempts : List (Attempt P)} {id : String} (accepted : id ∈ acceptedIds attempts) :
    ∃ attempt ∈ attempts, attempt.deposit.id = id := by
  obtain ⟨attempt, kept, own⟩ := List.mem_map.mp accepted
  exact ⟨attempt, (List.mem_filter.mp kept).1, own⟩

/-- No sweep transfers a deposit twice, or one that it remembers. -/
theorem sweep_once (config : DepositTransferConfig P) (seen : Finset String) (transferred : Nat)
    (deposits : List (Listed P)) :
    (acceptedIds (sweep config seen transferred deposits).attempts).Nodup ∧
      ∀ id ∈ acceptedIds (sweep config seen transferred deposits).attempts, id ∉ seen := by
  have fresh : ∀ seen transferred deposits,
      ∀ id ∈ acceptedIds (sweep config seen transferred deposits).attempts, id ∉ seen := by
    intro seen transferred deposits id accepted
    obtain ⟨attempt, asked, rfl⟩ := acceptedIds_asked accepted
    exact (sweep_asks config seen transferred deposits attempt asked).2.1
  refine ⟨?_, fresh seen transferred deposits⟩
  induction deposits generalizing seen transferred with
  | nil => exact List.nodup_nil
  | cons listed rest ih =>
    by_cases asks : Eligible config listed.entry ∧ listed.entry.id ∉ seen
    · rw [sweep_attempts asks.1 asks.2]
      cases listed.refusal with
      | some error => exact List.nodup_nil
      | none =>
        dsimp only
        rw [acceptedIds_accepted, List.nodup_cons]
        exact ⟨fun again => fresh _ _ _ _ again (Finset.mem_insert_self ..), ih _ _⟩
    · rw [sweep_skips asks]
      exact ih seen transferred

/-- Whether a sweep asks for the transfer of each deposit that it is for. -/
def SweepsAll (config : DepositTransferConfig P) (seen : Finset String) (deposits : List (Listed P))
    (attempts : List (Attempt P)) : Prop :=
  ∀ listed ∈ deposits, Eligible config listed.entry → listed.entry.id ∉ seen →
    ∃ attempt ∈ attempts, attempt.deposit.id = listed.entry.id

theorem due_eq_nil_iff : due config seen deposits = [] ↔
    ∀ listed ∈ deposits, Eligible config listed.entry → listed.entry.id ∈ seen := by
  induction deposits with
  | nil => exact iff_of_true rfl nofun
  | cons listed rest ih =>
    rw [due, List.forall_mem_cons]
    by_cases asks : Eligible config listed.entry ∧ listed.entry.id ∉ seen
    · rw [if_pos asks]
      exact iff_of_false (List.cons_ne_nil _ _) fun ⟨swept, _⟩ => asks.2 (swept asks.1)
    · rw [if_neg asks, ih]
      exact (and_iff_right fun eligible => by_contra fun unswept => asks ⟨eligible, unswept⟩).symm

/-- A sweep that is refused first leaves the others, unless there are none. -/
theorem sweepsAll_refused (eligible : Eligible config listed.entry) (unswept : listed.entry.id ∉ seen)
    {transfer : Transfer P} :
    SweepsAll config seen (listed :: rest) [⟨listed.entry, transfer, false⟩] ↔
      due config (insert listed.entry.id seen) rest = [] := by
  rw [due_eq_nil_iff]
  constructor
  · intro all other member wanted
    by_contra fresh
    rw [Finset.mem_insert, not_or] at fresh
    obtain ⟨attempt, only, same⟩ := all other (List.mem_cons_of_mem _ member) wanted fresh.2
    obtain rfl := List.mem_singleton.mp only
    exact fresh.1 same.symm
  · intro swept other member wanted fresh
    refine ⟨_, List.mem_singleton_self _, ?_⟩
    rcases List.mem_cons.mp member with rfl | later
    · rfl
    rcases Finset.mem_insert.mp (swept other later wanted) with same | earlier
    · exact same.symm
    · exact absurd earlier fresh

theorem sweepsAll_accepted {transfer : Transfer P} {attempts : List (Attempt P)} :
    SweepsAll config seen (listed :: rest) (⟨listed.entry, transfer, true⟩ :: attempts) ↔
      SweepsAll config (insert listed.entry.id seen) rest attempts := by
  constructor
  · intro all other member wanted fresh
    rw [Finset.mem_insert, not_or] at fresh
    obtain ⟨attempt, asked, same⟩ := all other (List.mem_cons_of_mem _ member) wanted fresh.2
    rcases List.mem_cons.mp asked with rfl | later
    · exact absurd same.symm fresh.1
    · exact ⟨attempt, later, same⟩
  · intro all other member wanted fresh
    by_cases same : other.entry.id = listed.entry.id
    · exact ⟨_, List.mem_cons_self .., same.symm⟩
    · have later : other ∈ rest := by
        rcases List.mem_cons.mp member with rfl | later
        · exact absurd rfl same
        · exact later
      have unswept : other.entry.id ∉ insert listed.entry.id seen := by
        rw [Finset.mem_insert, not_or]
        exact ⟨same, fresh⟩
      obtain ⟨attempt, asked, own⟩ := all other later wanted unswept
      exact ⟨attempt, List.mem_cons_of_mem _ asked, own⟩

/-- A refusal ends the sweep, so that all deposits are asked for when it comes at the last. -/
theorem sweepsAll_iff (config : DepositTransferConfig P) (seen : Finset String) (transferred : Nat)
    (deposits : List (Listed P)) :
    SweepsAll config seen deposits (sweep config seen transferred deposits).attempts ↔
      ∀ listed ∈ (due config seen deposits).dropLast, listed.refusal = none := by
  induction deposits generalizing seen transferred with
  | nil => exact iff_of_true nofun nofun
  | cons listed rest ih =>
    by_cases asks : Eligible config listed.entry ∧ listed.entry.id ∉ seen
    · rw [due, if_pos asks, sweep_attempts asks.1 asks.2]
      by_cases last : due config (insert listed.entry.id seen) rest = []
      · rw [last, List.dropLast_singleton]
        refine iff_of_true ?_ nofun
        cases listed.refusal with
        | some error => exact (sweepsAll_refused asks.1 asks.2).mpr last
        | none => exact sweepsAll_accepted.mpr ((ih _ _).mpr (last ▸ nofun))
      rw [List.dropLast_cons_of_ne_nil last, List.forall_mem_cons]
      cases answer : listed.refusal with
      | some error => exact iff_of_false (mt (sweepsAll_refused asks.1 asks.2).mp last) nofun
      | none => exact sweepsAll_accepted.trans ((ih _ _).trans (and_iff_right rfl).symm)
    · rw [due, if_neg asks, sweep_skips asks, ← ih seen transferred, SweepsAll, List.forall_mem_cons]
      exact and_iff_right fun eligible unswept => absurd ⟨eligible, unswept⟩ asks

end Loop

/-- The strategy since its process started. -/
structure Process (P : Type) where
  seen : Finset String
  attempts : List (Attempt P)

def Process.new : Process P := ⟨∅, []⟩

section Runs

variable (config : DepositTransferConfig P)

def step (process : Process P) (wallet : WalletGateway P) : Process P :=
  let swept := tick config process.seen wallet
  ⟨swept.seen, process.attempts ++ swept.attempts⟩

/-- No deposit has been transferred twice, and the ids that are remembered are those transferred. -/
structure Process.Remembers (process : Process P) : Prop where
  once : (acceptedIds process.attempts).Nodup
  remembered : ∀ id, id ∈ process.seen ↔ id ∈ acceptedIds process.attempts

/-- Whether a tick that reads its list asks for the transfer of each deposit in it that is to be swept and
has not been. -/
def Sweeps (process : Process P) (wallet : WalletGateway P) : Prop :=
  ∀ deposits, wallet.fetchDeposits config.exchangeId 50 = .ok deposits →
    ∀ listed ∈ deposits, Eligible config listed.entry →
      listed.entry.id ∉ acceptedIds process.attempts →
        ∃ attempt ∈ (tick config process.seen wallet).attempts, attempt.deposit.id = listed.entry.id

/-- Of the deposits that a tick is to sweep, at most the last is refused. -/
def LastRefused (process : Process P) (wallet : WalletGateway P) : Prop :=
  ∀ deposits, wallet.fetchDeposits config.exchangeId 50 = .ok deposits →
    ∀ listed ∈ (due config process.seen deposits).dropLast, listed.refusal = none

variable {config} {process : Process P}

omit [LinearOrder P] [Zero P] in
theorem Process.Remembers.new : (Process.new : Process P).Remembers := by
  refine ⟨List.nodup_nil, fun id => ?_⟩
  exact iff_of_false (Finset.notMem_empty id) List.not_mem_nil

theorem Process.Remembers.step (remembers : process.Remembers) (wallet : WalletGateway P) :
    (step config process wallet).Remembers := by
  unfold DepositTransfer.step tick
  cases wallet.fetchDeposits config.exchangeId 50 with
  | error error => simpa using remembers
  | ok deposits =>
    obtain ⟨distinct, fresh⟩ := sweep_once config process.seen 0 deposits
    dsimp only
    refine ⟨?_, fun id => ?_⟩
    · rw [acceptedIds_append, List.nodup_append]
      refine ⟨remembers.once, distinct, fun earlier before later after same => ?_⟩
      exact fresh later after ((remembers.remembered later).mpr (same ▸ before))
    · rw [mem_seen_sweep, remembers.remembered, acceptedIds_append, List.mem_append]

/-- What a tick leaves unasked stands behind a refusal. -/
theorem Process.Remembers.sweeps_iff (remembers : process.Remembers) (wallet : WalletGateway P) :
    Sweeps config process wallet ↔ LastRefused config process wallet := by
  refine forall_congr' fun deposits => forall_congr' fun read => ?_
  rw [← sweepsAll_iff config process.seen 0 deposits, tick, read, SweepsAll]
  simp only [remembers.remembered]

end Runs

/-- Over any run of ticks, no deposit is transferred twice and each tick asks for the transfer of all that
it is to sweep, exactly when no tick is refused a transfer other than its last. -/
theorem deposits_swept_iff (config : DepositTransferConfig P) (wallets : List (WalletGateway P)) :
    ((acceptedIds (wallets.foldl (step config) .new).attempts).Nodup ∧
        Runs.Along (step config) (Sweeps config) .new wallets) ↔
      Runs.Along (step config) (LastRefused config) .new wallets := by
  have remembers : (wallets.foldl (step config) (.new : Process P)).Remembers := by
    refine List.foldlRecOn wallets (step config) .new fun process held wallet _ => ?_
    exact held.step wallet
  rw [and_iff_right remembers.once]
  refine @Runs.along_congr _ _ _ Process.Remembers _ _ ?_ ?_ _ .new wallets
  · exact fun process wallet held => held.sweeps_iff wallet
  · exact fun process wallet held _ => held.step wallet

/-- A wallet that lists two deposits, and refuses to transfer the first. -/
def poisoned : WalletGateway Int where
  listLedgerEntries _ _ _ _ := .ok
    [⟨⟨"d1", "USDT", 50, true⟩, some (.transport "transfer refused")⟩, ⟨⟨"d2", "USDT", 30, true⟩, none⟩]

def sweeper : DepositTransferConfig Int := ⟨⟨"mock", ""⟩, "master", 0⟩

/-- Each tick asks for the first deposit again, and never for the second. -/
theorem refused_deposit_blocks :
    ([poisoned, poisoned].foldl (step sweeper) .new).attempts.map (fun attempt =>
        (attempt.transfer.clientTransferId, attempt.accepted)) =
      [("deposit-sweep:d1", false), ("deposit-sweep:d1", false)] ∧
    ¬ ((acceptedIds ([poisoned, poisoned].foldl (step sweeper) .new).attempts).Nodup ∧
        Runs.Along (step sweeper) (Sweeps sweeper) .new [poisoned, poisoned]) := by
  refine ⟨by decide, fun ⟨_, first, _⟩ => ?_⟩
  obtain ⟨attempt, asked, same⟩ := first _ rfl ⟨⟨"d2", "USDT", 30, true⟩, none⟩ (.tail _ (.head _))
    (by decide) (by decide)
  obtain rfl := List.mem_singleton.mp asked
  exact absurd same (by decide)

end LongTrader.Strategy.DepositTransfer
