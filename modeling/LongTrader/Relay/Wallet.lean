import LongTrader.Relay.Triggers
import Mathlib.Data.List.Count
import Mathlib.Data.List.Induction

/-! Transfers behind a chain of workers, and what becomes of a transfer that is sent again. -/

namespace LongTrader.Relay

open Session

/-- `ports::TransferReceipt`. -/
structure TransferReceipt where
  transferId : String
  entry : Option LedgerEntry
  deriving DecidableEq, Repr

/-- A call of `WalletGateway::transfer`; `now` is what the venue's clock shows. -/
structure TransferCall where
  now : Int
  exchange : ExchangeId
  asset : String
  amount : Decimal
  destLabel : String
  clientTransferId : String
  deriving DecidableEq, Repr

/-- Why a transfer has no receipt. -/
inductive Fault where
  | refused (error : PortError)
  | panicked
  deriving DecidableEq, Repr

/-- `WalletGateway::transfer`, on a venue whose state is a `σ`. -/
abbrev WalletPort (σ : Type) := Service.Port TransferCall TransferReceipt Fault σ

/-- `trading.v1.TransferRequest`. -/
structure WireTransferRequest where
  exchangeId : Option ExchangeId
  sessionId : String
  asset : String
  amount : Option String
  destLabel : String
  clientTransferId : String

/-- `trading.v1.TransferResponse`. -/
structure WireTransferResponse where
  transferId : String
  entry : Option WireLedgerEntry

section Workers

variable {σ : Type} (ops : DecimalOps) (connect : Connect)

/-- The checks of the arguments, the same in the venue and in the remote adapter. -/
def validateTransfer (call : TransferCall) : Except PortError Unit :=
  if isBlank call.asset then .error (.missingField "asset")
  else if isNotPositive call.amount then
    .error (.invalidArgument ("transfer amount must be positive, got " ++ ops.render call.amount))
  else if isBlank call.destLabel then .error (.missingField "dest_label")
  else .ok ()

/-- `TradingProxy::transfer`; without an answer where the port panics. -/
def WorkerProxy.transfer (proxy : WorkerProxy) (port : WalletPort σ) (now : Int)
    (request : WireTransferRequest) (venue : σ) : Option (Except ConnectError WireTransferResponse) × σ :=
  match proxy.gate request.sessionId with
  | .error error => (some (.error error), venue)
  | .ok () => match requiredDecimal ops request.amount "amount" with
    | .error error => (some (.error error), venue)
    | .ok amount =>
      match port ⟨now, resolvedExchange request.exchangeId proxy.defaultExchange, request.asset, amount,
        request.destLabel, request.clientTransferId⟩ venue with
      | (.error .panicked, venue) => (none, venue)
      | (.error (.refused error), venue) => (some (.error (mapPort connect error)), venue)
      | (.ok receipt, venue) =>
        (some (.ok ⟨receipt.transferId, receipt.entry.map (ledgerEntryToUnified ops)⟩), venue)

variable (checks : Bool) (closed : String)

/-- The receipt that the remote adapter reads off a response. -/
def receiptToPort (response : WireTransferResponse) : Except Fault TransferReceipt :=
  match response.entry with
  | none => .ok ⟨response.transferId, none⟩
  | some entry => match ledgerEntryToPort checks ops entry with
    | none => .error .panicked
    | some (.error error) => .error (.refused error)
    | some (.ok entry) => .ok ⟨response.transferId, some entry⟩

/-- What becomes of an exchange of `transport::unary`. One that fails, as at its deadline, may have been served
all the same. -/
inductive Exchange where
  | answered
  | failed (served : Bool) (message : String)
  deriving DecidableEq

/-- Another worker, and what becomes of the exchange with it. -/
structure Hop where
  exchange : Exchange
  worker : WorkerProxy

def Hop.fails (hop : Hop) : Bool := hop.exchange ≠ .answered

/-- `RemoteAdapter::transfer`, speaking to the proxy of another worker; `closed` is what is said of a
connection that ends without an answer. -/
def remoteTransfer (hop : Hop) (port : WalletPort σ) : WalletPort σ := fun call venue =>
  match validateTransfer ops call with
  | .error error => (.error (.refused error), venue)
  | .ok () =>
    let answer := hop.worker.transfer ops connect port call.now ⟨some call.exchange, "", call.asset,
      some (ops.render call.amount), call.destLabel, call.clientTransferId⟩ venue
    match hop.exchange with
    | .failed served message => (.error (.refused (.transport message)), if served then answer.2 else venue)
    | .answered => match answer with
      | (none, venue) => (.error (.refused (.transport closed)), venue)
      | (some (.error error), venue) => (.error (.refused (received connect error)), venue)
      | (some (.ok response), venue) => (receiptToPort ops checks response, venue)

/-- The port of the first of the workers in front of a venue. -/
def transferChain (hops : List Hop) (venue : WalletPort σ) : WalletPort σ :=
  hops.foldr (remoteTransfer ops connect checks closed) venue

/-- A transfer that is sent, with the workers that it goes through. -/
structure Sent where
  call : TransferCall
  hops : List Hop

def Sent.fails (sent : Sent) : Bool := sent.hops.any Hop.fails

/-- A venue as its clients reach it, each transfer through workers of its own. -/
def reached (venue : WalletPort σ) : Service.Port Sent TransferReceipt Fault σ := fun sent =>
  transferChain ops connect checks closed sent.hops venue sent.call

end Workers

/-- A receipt without the sign of its entry: an entry that is sent on comes with its amount positive. -/
def TransferReceipt.unsigned (receipt : TransferReceipt) : TransferReceipt :=
  { receipt with entry := receipt.entry.map fun entry => { entry with amount := entry.amount.abs } }

/-- A receipt of the venue as it is told through some workers. -/
def TransferReceipt.through (receipt : TransferReceipt) : List Hop → TransferReceipt
  | [] => receipt
  | _ :: _ => receipt.unsigned

/-- What `WalletGateway::transfer` is to do in the states that a venue keeps to. -/
def transferTerms {σ : Type} (ops : DecimalOps) (keeps : σ → Prop) :
    Service.Terms TransferCall TransferReceipt σ where
  asks call := Instant call.now ∧ call.amount.Fits
  proper call := validateTransfer ops call = .ok ()
  keeps := keeps
  answers _ receipt := ∀ entry ∈ receipt.entry, entry.amount.Fits ∧ Instant entry.timeMs

section Agreement

variable {σ : Type} {ops : DecimalOps} {connect : Connect} {checks : Bool} {closed : String}

theorem fits_abs {decimal : Decimal} : decimal.abs.Fits ↔ decimal.Fits := by
  simp [Decimal.Fits, Decimal.abs, Int.natAbs_abs]

theorem ledgerEntryToPort_written (lossless : ops.Lossless) {entry : LedgerEntry}
    (fits : entry.amount.Fits) (instant : Instant entry.timeMs) :
    ledgerEntryToPort checks ops (ledgerEntryToUnified ops entry) =
      some (.ok { entry with
        amount := if isSignNegative entry.amount then entry.amount.neg else entry.amount }) := by
  have decoded : dec ops (ledgerEntryToUnified ops entry).amount "ledger_entry.amount" =
      .ok entry.amount := dec_render lossless fits _
  have time : (ledgerEntryToUnified ops entry).timestamp = some (timestampFromMs entry.timeMs) := rfl
  have back : timestampToMs checks (timestampFromMs entry.timeMs) = some entry.timeMs := by
    rw [timestampToMs_fromMs checks ((fitsI64_iff _).mpr ⟨by have := instant.1; omega, instant.2⟩)]
    exact if_neg fun both => absurd both.2 (not_lt.mpr instant.1)
  have status : eqIgnoreAsciiCase (ledgerEntryToUnified ops entry).status "completed" =
      entry.completed := by
    have label : ∀ completed : Bool,
        eqIgnoreAsciiCase (if completed then "completed" else "pending") "completed" = completed := by
      decide
    exact label entry.completed
  have direction : eqIgnoreAsciiCase (ledgerEntryToUnified ops entry).direction "out" =
      isSignNegative entry.amount := by
    have label : ∀ negative : Bool,
        eqIgnoreAsciiCase (if negative then "out" else "in") "out" = negative := by
      decide
    exact label (isSignNegative entry.amount)
  unfold ledgerEntryToPort
  simp only [decoded, time, back, status, direction, Option.map_some]
  rfl

theorem abs_abs (decimal : Decimal) : decimal.abs.abs = decimal.abs := by
  simp [Decimal.abs]

theorem TransferReceipt.unsigned_unsigned (receipt : TransferReceipt) :
    receipt.unsigned.unsigned = receipt.unsigned := by
  rw [TransferReceipt.unsigned, TransferReceipt.unsigned, Option.map_map]
  simp only [Function.comp_def, abs_abs]

theorem TransferReceipt.unsigned_through (receipt : TransferReceipt) (hops : List Hop) :
    (receipt.through hops).unsigned = receipt.unsigned := by
  cases hops with
  | nil => rfl
  | cons hop rest => exact receipt.unsigned_unsigned

theorem receiptToPort_written (checks : Bool) (lossless : ops.Lossless) {receipt : TransferReceipt}
    (within : ∀ entry ∈ receipt.entry, entry.amount.Fits ∧ Instant entry.timeMs) :
    receiptToPort ops checks ⟨receipt.transferId, receipt.entry.map (ledgerEntryToUnified ops)⟩ =
      .ok receipt.unsigned := by
  obtain ⟨transferId, entry⟩ := receipt
  cases entry with
  | none => rfl
  | some entry =>
    obtain ⟨fits, instant⟩ := within entry rfl
    have sign : (if isSignNegative entry.amount then entry.amount.neg else entry.amount) = entry.amount.abs := by
      rw [isSignNegative, Decimal.abs, Decimal.neg]
      split
      · rename_i negative
        rw [abs_of_neg (by simpa using negative)]
      · rename_i positive
        rw [abs_of_nonneg (by simpa using positive)]
    simp only [receiptToPort, Option.map_some, ledgerEntryToPort_written lossless fits instant,
      TransferReceipt.unsigned, sign]

theorem unsigned_answers {keeps : σ → Prop} (call : TransferCall) (receipt : TransferReceipt)
    (within : (transferTerms ops keeps).answers call receipt) :
    (transferTerms ops keeps).answers call receipt.unsigned := by
  intro entry present
  obtain ⟨signed, before, rfl⟩ := Option.map_eq_some_iff.mp present
  obtain ⟨fits, instant⟩ := within signed before
  exact ⟨fits_abs.mpr fits, instant⟩

/-- One more worker changes the texts of errors and the signs of receipts, and its exchange may fail. -/
theorem remoteTransfer_relays (lossless : ops.Lossless) {keeps : σ → Prop} (hop : Hop) (port : WalletPort σ)
    (honours : Service.Honours (transferTerms ops keeps) port) :
    Service.Relays (transferTerms ops keeps) (hop.fails = true) TransferReceipt.unsigned
      (remoteTransfer ops connect checks closed hop port) port := by
  intro call venue asked kept
  cases valid : validateTransfer ops call with
  | error error =>
    left
    have refused := honours.refuses call venue asked kept (fun proper => by cases valid.symm.trans proper)
    rw [refused.1, refused.2, Service.outcome, remoteTransfer, valid]
    rfl
  | ok =>
    have answered := fun reply => honours.answers call venue reply asked kept
    simp only [remoteTransfer, valid, WorkerProxy.transfer, hop.worker.operator,
      requiredDecimal_render lossless asked.2, resolvedExchange, Option.getD_some]
    rcases served : port call venue with ⟨fault | receipt, after⟩
    · cases exchange : hop.exchange with
      | answered =>
        left
        cases fault <;> rfl
      | failed reaches message =>
        refine .inr ⟨by simp [Hop.fails, exchange], rfl, ?_⟩
        cases reaches with
        | false => exact .inl rfl
        | true => cases fault <;> exact .inr rfl
    · cases exchange : hop.exchange with
      | answered =>
        left
        have within := answered receipt (congrArg Prod.fst served)
        simp only [Service.outcome, receiptToPort_written checks lossless within]
        rfl
      | failed reaches message =>
        refine .inr ⟨by simp [Hop.fails, exchange], rfl, ?_⟩
        cases reaches with
        | false => exact .inl rfl
        | true => exact .inr rfl

theorem transferChain_relays (lossless : ops.Lossless) {keeps : σ → Prop} {port : WalletPort σ}
    (honours : Service.Honours (transferTerms ops keeps) port) (hops : List Hop) :
    Service.Relays (transferTerms ops keeps) (hops.any Hop.fails = true) (·.through hops)
        (transferChain ops connect checks closed hops port) port ∧
      Service.Honours (transferTerms ops keeps) (transferChain ops connect checks closed hops port) := by
  induction hops with
  | nil =>
    refine ⟨fun call venue asked kept => .inl ?_, honours⟩
    show _ = (Option.map id (port call venue).1.toOption, (port call venue).2)
    rw [Option.map_id_apply]
    rfl
  | cons hop rest ih =>
    have first := @remoteTransfer_relays _ ops connect checks closed lossless keeps hop _ ih.2
    refine ⟨?_, ih.2.of_relays first unsigned_answers⟩
    intro call venue asked kept
    have both := first.trans ih.1 call venue asked kept
    simp only [Function.comp_def, TransferReceipt.unsigned_through, transferChain] at both
    simpa only [List.any_cons, Bool.or_eq_true, TransferReceipt.through, transferChain, List.foldr_cons] using both

end Agreement

section Venue

/-- What `MockAdapter` keeps of transfers, and the counter that all its ids are drawn from. The receipts
are kept with the key that the client sent. -/
structure MockWallet where
  ids : Nat
  deposits : List LedgerEntry
  transfers : List (String × Decimal × String)
  receipts : List (String × TransferReceipt)

/-- The id of a transfer that came without a key. -/
def transferId (id : Nat) : String := "transfer-" ++ toString id

/-- The receipt of an earlier transfer that has the key for its id. -/
def MockWallet.receipt (wallet : MockWallet) (key : String) : Option TransferReceipt :=
  if key = "" then none
  else (wallet.receipts.find? fun row => row.2.transferId = key).map Prod.snd

/-- The entry that a transfer leaves in the ledger. -/
def TransferCall.entry (call : TransferCall) (id : String) : LedgerEntry :=
  ⟨id, call.asset, call.amount.neg, "transfer", true, call.now⟩

/-- `MockAdapter::transfer`. -/
def mockTransfer (ops : DecimalOps) : WalletPort MockWallet := fun call wallet =>
  match validateTransfer ops call with
  | .error error => (.error (.refused error), wallet)
  | .ok () => match wallet.receipt call.clientTransferId with
    | some receipt => (.ok receipt, wallet)
    | none =>
      let anonymous : Bool := call.clientTransferId = ""
      let id := if anonymous then transferId wallet.ids else call.clientTransferId
      let receipt : TransferReceipt := ⟨id, some (call.entry id)⟩
      (.ok receipt,
        { ids := if anonymous then (wallet.ids + 1) % 2 ^ 64 else wallet.ids
          deposits := call.entry id :: wallet.deposits
          transfers := wallet.transfers ++ [(call.asset, call.amount, call.destLabel)]
          receipts := wallet.receipts ++ [(call.clientTransferId, receipt)] })

/-- What else happens at the venue: an id is drawn, or a row comes into the ledger. -/
inductive WalletUse where
  | draw
  | deposit (entry : LedgerEntry)

def MockWallet.use (wallet : MockWallet) : WalletUse → MockWallet
  | .draw => { wallet with ids := (wallet.ids + 1) % 2 ^ 64 }
  | .deposit entry => { wallet with deposits := wallet.deposits ++ [entry] }

def MockWallet.Sound (wallet : MockWallet) : Prop :=
  ∀ row ∈ wallet.receipts, ∀ entry ∈ row.2.entry, entry.amount.Fits ∧ Instant entry.timeMs

theorem MockWallet.receipt_mem {wallet : MockWallet} {key : String} {receipt : TransferReceipt}
    (found : wallet.receipt key = some receipt) :
    key ≠ "" ∧ ∃ row ∈ wallet.receipts, row.2 = receipt ∧ receipt.transferId = key := by
  rw [MockWallet.receipt] at found
  split at found
  · cases found
  · rename_i named
    obtain ⟨row, first, rfl⟩ := Option.map_eq_some_iff.mp found
    have here : row.2.transferId = key := by simpa using List.find?_some first
    exact ⟨named, row, List.mem_of_find?_eq_some first, rfl, here⟩

theorem entry_sound {call : TransferCall} (instant : Instant call.now) (fits : call.amount.Fits)
    (id : String) : (call.entry id).amount.Fits ∧ Instant (call.entry id).timeMs := by
  refine ⟨?_, instant⟩
  have opposite : call.amount.neg.Fits ↔ call.amount.Fits := by simp [Decimal.Fits, Decimal.neg]
  exact opposite.mpr fits

/-- The wallet after a call that moves funds. -/
def MockWallet.moved (wallet : MockWallet) (call : TransferCall) (id : String) (ids : Nat) : MockWallet where
  ids := ids
  deposits := call.entry id :: wallet.deposits
  transfers := wallet.transfers ++ [(call.asset, call.amount, call.destLabel)]
  receipts := wallet.receipts ++ [(call.clientTransferId, ⟨id, some (call.entry id)⟩)]

/-- A transfer is refused, or its key has a receipt, or funds move under its key or under an id of the venue. -/
theorem mockTransfer_cases (ops : DecimalOps) (call : TransferCall) (wallet : MockWallet) :
    (∃ error, validateTransfer ops call = .error error ∧
      mockTransfer ops call wallet = (.error (.refused error), wallet)) ∨
    (∃ receipt, wallet.receipt call.clientTransferId = some receipt ∧
      mockTransfer ops call wallet = (.ok receipt, wallet)) ∨
    ∃ id ids, wallet.receipt call.clientTransferId = none ∧ (call.clientTransferId ≠ "" → id = call.clientTransferId) ∧
      (call.clientTransferId = "" → ∃ drawn, id = transferId drawn) ∧ validateTransfer ops call = .ok () ∧
      mockTransfer ops call wallet = (.ok ⟨id, some (call.entry id)⟩, wallet.moved call id ids) := by
  rw [mockTransfer]
  cases valid : validateTransfer ops call with
  | error error => exact .inl ⟨error, rfl, rfl⟩
  | ok =>
    right
    cases found : wallet.receipt call.clientTransferId with
    | some receipt => exact .inl ⟨receipt, rfl, rfl⟩
    | none =>
      refine .inr ⟨_, _, rfl, ?_, ?_, rfl, rfl⟩
      · intro keyed
        exact if_neg (by simpa using keyed)
      · intro blank
        exact ⟨wallet.ids, if_pos (by simpa using blank)⟩

/-- The mock venue keeps to the terms of transfers. -/
theorem mockTransfer_honours (ops : DecimalOps) :
    Service.Honours (transferTerms ops MockWallet.Sound) (mockTransfer ops) where
  keeps call wallet asked sound := by
    rcases mockTransfer_cases ops call wallet with ⟨_, _, same⟩ | ⟨_, _, same⟩ | ⟨id, ids, _, _, _, _, moved⟩
    · rwa [same]
    · rwa [same]
    · rw [moved]
      intro row member
      rcases List.mem_append.mp member with old | fresh
      · exact sound row old
      · rw [List.mem_singleton.mp fresh]
        intro entry present
        rw [← Option.some.inj present]
        exact entry_sound asked.1 asked.2 _
  answers call wallet reply asked sound answered := by
    rcases mockTransfer_cases ops call wallet with ⟨_, _, same⟩ | ⟨receipt, found, same⟩ | ⟨id, ids, _, _, _, _, moved⟩
    · rw [same] at answered
      cases answered
    · rw [same] at answered
      obtain rfl := Except.ok.inj answered
      obtain ⟨_, row, member, rfl, _⟩ := MockWallet.receipt_mem found
      exact sound row member
    · rw [moved] at answered
      obtain rfl := Except.ok.inj answered
      intro entry present
      rw [← Option.some.inj present]
      exact entry_sound asked.1 asked.2 _
  refuses call wallet asked sound improper := by
    rw [mockTransfer]
    cases valid : validateTransfer ops call with
    | error error => exact ⟨rfl, rfl⟩
    | ok => exact absurd valid improper

end Venue

section Client

/-- How a receipt that the venue keeps goes with the transfer that moved the funds. -/
def Receipts (call : TransferCall) (row : String × TransferReceipt) : Prop :=
  ∃ id, row = (call.clientTransferId, ⟨id, some (call.entry id)⟩) ∧
    (call.clientTransferId ≠ "" → id = call.clientTransferId) ∧
    (call.clientTransferId = "" → ∃ drawn, id = transferId drawn)

/-- The transfers of a log that may have moved funds: those with an answer, and those of which an exchange
failed. -/
def mayHaveMoved (log : List (Sent × Option TransferReceipt)) : List TransferCall :=
  (log.filter fun row => row.2.isSome || row.1.fails).map fun row => row.1.call

/-- The transfers of a log that were answered and had no key. -/
def answeredUnnamed (log : List (Sent × Option TransferReceipt)) : List TransferCall :=
  (log.filter fun row => row.2.isSome && row.1.call.clientTransferId == "").map fun row => row.1.call

/-- What the wallet keeps of the transfers `moved`, and what its clients were told of it. -/
structure MockWallet.Known (log : List (Sent × Option TransferReceipt)) (moved : List TransferCall)
    (wallet : MockWallet) : Prop where
  transfers : wallet.transfers = moved.map fun call => (call.asset, call.amount, call.destLabel)
  receipts : ∀ row ∈ wallet.receipts, ∃ call ∈ moved, Receipts call row
  covered : ∀ call ∈ moved, ∃ row ∈ wallet.receipts, Receipts call row
  sent : moved.Sublist (mayHaveMoved log)
  unnamed : (answeredUnnamed log).Sublist moved
  once : ∀ key ≠ "", (moved.map TransferCall.clientTransferId).count key ≤ 1
  told : ∀ sent receipt, (sent, some receipt) ∈ log → sent.call.clientTransferId ≠ "" →
    (wallet.receipt sent.call.clientTransferId).map (·.through sent.hops) = some receipt

variable {log : List (Sent × Option TransferReceipt)} {moved : List TransferCall} {wallet : MockWallet}

theorem mayHaveMoved_append (row : Sent × Option TransferReceipt) : mayHaveMoved (log ++ [row]) =
    mayHaveMoved log ++ if row.2.isSome || row.1.fails then [row.1.call] else [] := by
  rw [mayHaveMoved, List.filter_append, List.map_append, ← mayHaveMoved, List.filter_singleton]
  cases row.2.isSome || row.1.fails <;> rfl

theorem answeredUnnamed_append (row : Sent × Option TransferReceipt) : answeredUnnamed (log ++ [row]) =
    answeredUnnamed log ++ if row.2.isSome && row.1.call.clientTransferId == "" then [row.1.call] else [] := by
  rw [answeredUnnamed, List.filter_append, List.map_append, ← answeredUnnamed, List.filter_singleton]
  cases row.2.isSome && row.1.call.clientTransferId == "" <;> rfl

theorem MockWallet.Known.new : MockWallet.Known [] [] ⟨1, [], [], []⟩ where
  transfers := rfl
  receipts _ member := by cases member
  covered _ member := by cases member
  sent := .slnil
  unnamed := .slnil
  once _ _ := Nat.zero_le _
  told _ _ member := by cases member

/-- A transfer that moves nothing, and is told nothing or the receipt of its key. -/
theorem MockWallet.Known.unmoved (known : wallet.Known log moved) {sent : Sent} {answer : Option TransferReceipt}
    (told : ∀ receipt, answer = some receipt → sent.call.clientTransferId ≠ "" ∧
      (wallet.receipt sent.call.clientTransferId).map (·.through sent.hops) = some receipt) :
    wallet.Known (log ++ [(sent, answer)]) moved where
  transfers := known.transfers
  receipts := known.receipts
  covered := known.covered
  sent := by
    rw [mayHaveMoved_append]
    exact known.sent.trans (List.sublist_append_left _ _)
  unnamed := by
    have keyed : (answer.isSome && sent.call.clientTransferId == "") = false := by
      cases answer with
      | none => rfl
      | some receipt => simpa using (told receipt rfl).1
    rw [answeredUnnamed_append, keyed]
    simpa using known.unnamed
  once := known.once
  told other receipt member keyed := by
    rcases List.mem_append.mp member with old | fresh
    · exact known.told other receipt old keyed
    · obtain ⟨rfl, rfl⟩ := Prod.mk.inj (List.mem_singleton.mp fresh)
      exact (told receipt rfl).2

theorem MockWallet.receipt_moved {call : TransferCall} {id : String} {ids : Nat} {key : String} :
    (wallet.moved call id ids).receipt key = (wallet.receipt key).or
      (if key ≠ "" ∧ id = key then some ⟨id, some (call.entry id)⟩ else none) := by
  by_cases blank : key = ""
  · simp [MockWallet.receipt, blank]
  · rw [MockWallet.receipt, MockWallet.receipt, if_neg blank, if_neg blank, MockWallet.moved,
      List.find?_append]
    cases wallet.receipts.find? fun row => row.2.transferId = key with
    | some row => rfl
    | none => by_cases same : id = key <;> simp [same, blank]

/-- A key without a receipt has moved nothing. -/
theorem MockWallet.Known.count_eq_zero (known : wallet.Known log moved) {key : String} (keyed : key ≠ "")
    (fresh : wallet.receipt key = none) : (moved.map TransferCall.clientTransferId).count key = 0 := by
  apply List.count_eq_zero_of_not_mem
  intro member
  obtain ⟨call, before, rfl⟩ := List.mem_map.mp member
  obtain ⟨_, kept, id, rfl, named, _⟩ := known.covered call before
  rw [MockWallet.receipt, if_neg keyed, Option.map_eq_none_iff, List.find?_eq_none] at fresh
  exact fresh _ kept (by simpa using named keyed)

/-- A transfer that moves funds, and is told its receipt unless an exchange failed. -/
theorem MockWallet.Known.move (known : wallet.Known log moved) {sent : Sent} {id : String}
    (fresh : wallet.receipt sent.call.clientTransferId = none)
    (named : sent.call.clientTransferId ≠ "" → id = sent.call.clientTransferId)
    (drawn : sent.call.clientTransferId = "" → ∃ drawn, id = transferId drawn) (ids : Nat)
    {answer : Option TransferReceipt} (failed : answer = none → sent.fails = true)
    (told : ∀ receipt, answer = some receipt →
      receipt = TransferReceipt.through ⟨id, some (sent.call.entry id)⟩ sent.hops) :
    (wallet.moved sent.call id ids).Known (log ++ [(sent, answer)]) (moved ++ [sent.call]) := by
  have goes : Receipts sent.call (sent.call.clientTransferId, ⟨id, some (sent.call.entry id)⟩) :=
    ⟨id, rfl, named, drawn⟩
  refine ⟨?_, ?_, ?_, ?_, ?_, ?_, ?_⟩
  · rw [MockWallet.moved, known.transfers, List.map_append]
    rfl
  · intro row member
    rcases List.mem_append.mp member with old | new
    · obtain ⟨call, before, was⟩ := known.receipts row old
      exact ⟨call, List.mem_append_left _ before, was⟩
    · rw [List.mem_singleton.mp new]
      exact ⟨sent.call, List.mem_append_right _ List.mem_cons_self, goes⟩
  · intro call member
    rcases List.mem_append.mp member with old | new
    · obtain ⟨row, before, was⟩ := known.covered call old
      exact ⟨row, List.mem_append_left _ before, was⟩
    · rw [List.mem_singleton.mp new]
      exact ⟨_, List.mem_append_right _ List.mem_cons_self, goes⟩
  · have may : (answer.isSome || sent.fails) = true := by
      cases answer with
      | none => exact failed rfl
      | some receipt => rfl
    rw [mayHaveMoved_append, if_pos may]
    exact known.sent.append (.refl _)
  · rw [answeredUnnamed_append]
    apply known.unnamed.append
    split
    · exact .refl _
    · exact List.nil_sublist _
  · intro key keyed
    rw [List.map_append, List.count_append]
    by_cases same : sent.call.clientTransferId = key
    · subst same
      rw [known.count_eq_zero keyed fresh, Nat.zero_add]
      exact List.count_le_length
    · have other : [sent.call].map TransferCall.clientTransferId = [sent.call.clientTransferId] := rfl
      rw [other, List.count_singleton, if_neg (by simpa using same), Nat.add_zero]
      exact known.once key keyed
  · intro other receipt member keyed
    rw [MockWallet.receipt_moved]
    rcases List.mem_append.mp member with old | new
    · have before := known.told other receipt old keyed
      obtain ⟨first, found, _⟩ := Option.map_eq_some_iff.mp before
      rw [found] at before ⊢
      exact before
    · obtain ⟨rfl, same⟩ := Prod.mk.inj (List.mem_singleton.mp new)
      rw [fresh, if_pos ⟨keyed, named keyed⟩, Option.none_or, Option.map_some, told receipt same.symm]

variable {ops : DecimalOps} {connect : Connect} {checks : Bool} {closed : String}

/-- The transfers that moved funds are known after one more, whatever becomes of its exchanges. -/
theorem MockWallet.Known.serve (lossless : ops.Lossless) (known : wallet.Known log moved) (sound : wallet.Sound)
    {sent : Sent} (asked : (transferTerms ops MockWallet.Sound).asks sent.call) :
    let served := reached ops connect checks closed (mockTransfer ops) sent wallet
    ∃ moved, served.2.Known (log ++ [(sent, served.1.toOption)]) moved := by
  intro served
  have relays := (@transferChain_relays _ ops connect checks closed lossless _ _ (mockTransfer_honours ops)
    sent.hops).1 sent.call wallet asked sound
  rcases mockTransfer_cases ops sent.call wallet with
    ⟨_, _, same⟩ | ⟨receipt, found, same⟩ | ⟨id, ids, fresh, named, drawn, _, moves⟩
  · rw [same] at relays
    have none_ : served.1.toOption = none ∧ served.2 = wallet := by
      rcases relays with told | ⟨_, silent, left | left⟩
      · exact Prod.mk.inj told
      · exact ⟨silent, left⟩
      · exact ⟨silent, left⟩
    rw [none_.1, none_.2]
    exact ⟨moved, known.unmoved fun receipt told => by cases told⟩
  · rw [same] at relays
    have keyed := (MockWallet.receipt_mem found).1
    have unchanged : served.2 = wallet := by
      rcases relays with told | ⟨_, _, left | left⟩
      · exact (Prod.mk.inj told).2
      · exact left
      · exact left
    rw [unchanged]
    refine ⟨moved, known.unmoved fun answer told => ⟨keyed, ?_⟩⟩
    rcases relays with relayed | ⟨_, silent, _⟩
    · rw [found]
      exact (Prod.mk.inj relayed).1.symm.trans told
    · cases silent.symm.trans told
  · rw [moves] at relays
    rcases relays with relayed | ⟨fails, silent, left | left⟩
    · obtain ⟨answer, after⟩ := Prod.mk.inj relayed
      rw [show served.2 = _ from after, show served.1.toOption = _ from answer]
      refine ⟨_, known.move fresh named drawn ids (fun silent => by cases silent) ?_⟩
      intro receipt told
      exact (Option.some.inj told).symm
    · rw [show served.2 = _ from left, show served.1.toOption = _ from silent]
      exact ⟨moved, known.unmoved fun receipt told => by cases told⟩
    · rw [show served.2 = _ from left, show served.1.toOption = _ from silent]
      refine ⟨_, known.move fresh named drawn ids (fun _ => fails) ?_⟩
      intro receipt told
      cases told

/-- What the clients know of the wallet holds after any events, whatever the workers. -/
theorem reached_known (lossless : ops.Lossless) {events : List (Service.Event Sent WalletUse)}
    (asked : ∀ sent, .call sent ∈ events → (transferTerms ops MockWallet.Sound).asks sent.call)
    {log : List (Sent × Option TransferReceipt)} {wallet : MockWallet}
    (happened : Service.history (reached ops connect checks closed (mockTransfer ops))
      (fun use wallet => wallet.use use) events ⟨1, [], [], []⟩ = (log, wallet)) :
    ∃ moved, wallet.Known log moved := by
  have start : MockWallet.Sound ⟨1, [], [], []⟩ ∧ ∃ moved, MockWallet.Known [] moved ⟨1, [], [], []⟩ :=
    ⟨fun _ member => (by cases member), [], .new⟩
  have holds := Service.history_rule (reached ops connect checks closed (mockTransfer ops))
    (fun use wallet => wallet.use use) (fun sent => (transferTerms ops MockWallet.Sound).asks sent.call)
    (fun _ log wallet => wallet.Sound ∧ ∃ moved, wallet.Known log moved) ?_ ?_ asked start
  · rw [happened] at holds
    exact holds.2
  · intro left log sent wallet asks both
    obtain ⟨sound, moved, known⟩ := both
    have honours := (@transferChain_relays _ ops connect checks closed lossless _ _ (mockTransfer_honours ops)
      sent.hops).2
    exact ⟨honours.keeps sent.call wallet asks sound, known.serve lossless sound asks⟩
  · intro left log use wallet both
    obtain ⟨sound, moved, known⟩ := both
    cases use <;> exact ⟨sound, moved, known.transfers, known.receipts, known.covered, known.sent, known.unnamed,
      known.once, known.told⟩

/-- The funds that moved are those of the transfers `moved`, as the clients of a log may count on it. -/
structure MockWallet.Settled (log : List (Sent × Option TransferReceipt)) (moved : List TransferCall)
    (wallet : MockWallet) : Prop where
  transfers : wallet.transfers = moved.map fun call => (call.asset, call.amount, call.destLabel)
  sent : moved.Sublist (mayHaveMoved log)
  unnamed : (answeredUnnamed log).Sublist moved
  once : ∀ key ≠ "", (moved.map TransferCall.clientTransferId).count key ≤ 1
  same : ∀ sent receipt other again, (sent, some receipt) ∈ log → (other, some again) ∈ log →
    sent.call.clientTransferId ≠ "" → other.call.clientTransferId = sent.call.clientTransferId →
    again.unsigned = receipt.unsigned ∧ (other.hops.isEmpty = sent.hops.isEmpty → again = receipt)
  shown : ∀ sent receipt, (sent, some receipt) ∈ log → sent.call.clientTransferId ≠ "" →
    (∀ drawn, sent.call.clientTransferId ≠ transferId drawn) →
    ∃ call ∈ moved, call.clientTransferId = sent.call.clientTransferId ∧
      receipt = TransferReceipt.through ⟨call.clientTransferId, some (call.entry call.clientTransferId)⟩ sent.hops

theorem MockWallet.Known.settled (known : wallet.Known log moved) : wallet.Settled log moved where
  transfers := known.transfers
  sent := known.sent
  unnamed := known.unnamed
  once := known.once
  same sent receipt other again one two keyed same := by
    obtain ⟨kept, found, rfl⟩ := Option.map_eq_some_iff.mp (known.told sent receipt one keyed)
    obtain ⟨also, found_, rfl⟩ := Option.map_eq_some_iff.mp (known.told other again two (same ▸ keyed))
    rw [same] at found_
    obtain rfl := Option.some.inj (found.symm.trans found_)
    refine ⟨by rw [TransferReceipt.unsigned_through, TransferReceipt.unsigned_through], fun alike => ?_⟩
    cases first : sent.hops <;> cases second : other.hops <;> simp_all [TransferReceipt.through]
  shown sent receipt told keyed chosen := by
    obtain ⟨kept, found, rfl⟩ := Option.map_eq_some_iff.mp (known.told sent receipt told keyed)
    obtain ⟨_, row, member, rfl, here⟩ := MockWallet.receipt_mem found
    obtain ⟨call, before, id, rfl, named, drawn⟩ := known.receipts row member
    have own : call.clientTransferId ≠ "" := by
      intro blank
      obtain ⟨number, same⟩ := drawn blank
      exact chosen number (here.symm.trans same)
    obtain rfl := named own
    exact ⟨call, before, here, rfl⟩

end Client

end LongTrader.Relay
