import LongTrader.Rounding
import LongTrader.Session.Handle

/-! Wallet ledger entries on the wire. The server publishes the sign of an amount both
in the amount and as a direction; the remote adapter applies the direction to the
amount it reads. -/

namespace LongTrader.Session

/-- `ports::LedgerEntry`; the amount is signed. -/
structure LedgerEntry where
  id : String
  currency : String
  amount : Decimal
  entryType : String
  completed : Bool
  timeMs : Int
  deriving DecidableEq, Repr

/-- `google.protobuf.Timestamp`. -/
structure Timestamp where
  seconds : Int
  nanos : Int
  deriving DecidableEq, Repr

/-- `account.v1.LedgerEntry`. -/
structure WireLedgerEntry where
  id : String
  currency : String
  direction : String
  type : String
  amount : Option String
  timestamp : Option Timestamp
  status : String
  deriving DecidableEq, Repr

def fitsI32 (value : Int) : Bool := -(2 ^ 31) ≤ value && value < 2 ^ 31

/-- `time::timestamp_from_ms`. -/
def timestampFromMs (ms : Int) : Timestamp :=
  let nanos := ms % 1000 * 1000000
  ⟨ms / 1000, if fitsI32 nanos then nanos else 0⟩

/-- `Decimal::is_sign_negative`. -/
def isSignNegative (decimal : Decimal) : Bool := decimal.coefficient < 0

/-- `proxy::ledger_entry_to_unified`. -/
def ledgerEntryToUnified (ops : DecimalOps) (entry : LedgerEntry) : WireLedgerEntry where
  id := entry.id
  currency := entry.currency
  direction := if isSignNegative entry.amount then "out" else "in"
  type := entry.entryType
  amount := some (ops.render entry.amount)
  timestamp := some (timestampFromMs entry.timeMs)
  status := if entry.completed then "completed" else "pending"

/-- The result of `i64` arithmetic: a build with overflow checks panics where any other
wraps. -/
def i64 (checks : Bool) (value : Int) : Option Int :=
  if fitsI64 value then some value
  else if checks then none
  else some ((value + 2 ^ 63) % 2 ^ 64 - 2 ^ 63)

/-- `ts.seconds * 1000 + i64::from(ts.nanos / 1_000_000)`. -/
def timestampToMs (checks : Bool) (ts : Timestamp) : Option Int := do
  let seconds ← i64 checks (ts.seconds * 1000)
  i64 checks (seconds + nanosToMillis ts.nanos)

/-- `remote::dec`. -/
def dec (ops : DecimalOps) (payload : Option String) (field : String) : Except PortError Decimal :=
  match payload with
  | none => .error (.missingField field)
  | some payload => match commonToDecimal ops payload with
    | .error error => .error (.decimal error)
    | .ok decimal => .ok decimal

/-- `str::eq_ignore_ascii_case`. -/
def eqIgnoreAsciiCase (first second : String) : Bool :=
  first.toList.map Char.toLower = second.toList.map Char.toLower

/-- `remote::ledger_entry_to_port`; `none` is a panic of the timestamp arithmetic. -/
def ledgerEntryToPort (checks : Bool) (ops : DecimalOps) (entry : WireLedgerEntry) :
    Option (Except PortError LedgerEntry) :=
  match dec ops entry.amount "ledger_entry.amount" with
  | .error error => some (.error error)
  | .ok magnitude =>
    let time : Option Int := match entry.timestamp with
      | none => some 0
      | some ts => timestampToMs checks ts
    time.map fun timeMs => .ok
      { id := entry.id
        currency := entry.currency
        amount := if eqIgnoreAsciiCase entry.direction "out" then magnitude.neg else magnitude
        entryType := entry.type
        completed := eqIgnoreAsciiCase entry.status "completed"
        timeMs := timeMs }

/-- Entries that compare equal: amounts by their numbers. -/
structure LedgerEntry.Same (first second : LedgerEntry) : Prop where
  id : first.id = second.id
  currency : first.currency = second.currency
  amount : first.amount.value = second.amount.value
  entryType : first.entryType = second.entryType
  completed : first.completed = second.completed
  timeMs : first.timeMs = second.timeMs

/-- A decimal is rendered as a text of the grammar that denotes it. -/
def Renders (ops : DecimalOps) (decimal : Decimal) : Prop :=
  ∃ numeral : Numeral, numeral.text = (ops.render decimal).toList ∧ numeral.number = decimal.value

theorem timestampFromMs_nanos (ms : Int) :
    nanosToMillis (timestampFromMs ms).nanos = ms % 1000 := by
  have small : fitsI32 (ms % 1000 * 1000000) = true := by
    simp only [fitsI32, Bool.and_eq_true, decide_eq_true_eq]
    omega
  simp only [timestampFromMs, small, if_true, nanosToMillis]
  exact Int.mul_tdiv_cancel _ (by decide)

theorem fitsI64_iff (value : Int) : fitsI64 value = true ↔ -(2 ^ 63) ≤ value ∧ value < 2 ^ 63 := by
  simp [fitsI64]

theorem i64_of_fits (checks : Bool) {value : Int} (fits : fitsI64 value = true) :
    i64 checks value = some value := by
  rw [i64, if_pos fits]

theorem i64_of_not_fits (checks : Bool) {value : Int} (beyond : ¬ fitsI64 value = true) :
    i64 checks value = if checks then none else some ((value + 2 ^ 63) % 2 ^ 64 - 2 ^ 63) := by
  rw [i64, if_neg beyond]

/-- Milliseconds survive the wire, unless the seconds alone leave the range and the
build checks for overflow. -/
theorem timestampToMs_fromMs (checks : Bool) {ms : Int} (fits : fitsI64 ms = true) :
    timestampToMs checks (timestampFromMs ms) =
      if checks = true ∧ ms < -9223372036854775000 then none else some ms := by
  have range := (fitsI64_iff ms).mp fits
  have seconds : (timestampFromMs ms).seconds = ms / 1000 := rfl
  unfold timestampToMs
  rw [timestampFromMs_nanos, seconds]
  by_cases early : ms < -9223372036854775000
  · have beyond : ¬ fitsI64 (ms / 1000 * 1000) = true := by
      rw [fitsI64_iff]
      omega
    rw [i64_of_not_fits checks beyond]
    cases checks with
    | true => simp [early]
    | false =>
      -- The product wraps to the top of the range, and the sum wraps back.
      have wrapped : (ms / 1000 * 1000 + 2 ^ 63) % 2 ^ 64 - 2 ^ 63 = ms / 1000 * 1000 + 2 ^ 64 := by
        omega
      have past : ¬ fitsI64 (ms / 1000 * 1000 + 2 ^ 64 + ms % 1000) = true := by
        rw [fitsI64_iff]
        omega
      have back : (ms / 1000 * 1000 + 2 ^ 64 + ms % 1000 + 2 ^ 63) % 2 ^ 64 - 2 ^ 63 = ms := by omega
      rw [wrapped, if_neg Bool.false_ne_true, Option.bind_eq_bind, Option.bind_some,
        i64_of_not_fits false past, back]
      simp
  · have product : fitsI64 (ms / 1000 * 1000) = true := by
      rw [fitsI64_iff]
      omega
    have sum : ms / 1000 * 1000 + ms % 1000 = ms := by omega
    rw [i64_of_fits checks product, Option.bind_eq_bind, Option.bind_some, sum,
      i64_of_fits checks fits, if_neg (fun both => early both.2)]

theorem isSignNegative_iff (decimal : Decimal) :
    isSignNegative decimal = true ↔ decimal.value < 0 := by
  have positive : (0 : ℚ) < 10 ^ decimal.scale := by positivity
  rw [isSignNegative, decide_eq_true_eq, Decimal.value, div_lt_iff₀ positive, zero_mul]
  norm_cast

section RoundTrip

variable {ops : DecimalOps} (documented : ops.Documented) {entry : LedgerEntry}
  (held : Representable entry.amount.value) (renders : Renders ops entry.amount)

include documented held renders

theorem dec_rendered : ∃ magnitude, dec ops (some (ops.render entry.amount)) "ledger_entry.amount" =
    .ok magnitude ∧ magnitude.value = entry.amount.value := by
  obtain ⟨numeral, text, number⟩ := renders
  obtain ⟨magnitude, parsed, value⟩ := documented.exact numeral _ text (number ▸ held)
  refine ⟨magnitude, ?_, value.trans number⟩
  simp only [dec, commonToDecimal_numeral text, parsed]

/-- What comes back of an entry: its amount without the sign. -/
theorem ledgerEntryToPort_unified (checks : Bool) (fits : fitsI64 entry.timeMs = true) :
    ∃ magnitude : Decimal, magnitude.value = |entry.amount.value| ∧
      ledgerEntryToPort checks ops (ledgerEntryToUnified ops entry) =
        if checks = true ∧ entry.timeMs < -9223372036854775000 then none
        else some (.ok { entry with amount := magnitude }) := by
  obtain ⟨magnitude, decoded, value⟩ := dec_rendered documented held renders
  have wire : dec ops (ledgerEntryToUnified ops entry).amount "ledger_entry.amount" = .ok magnitude :=
    decoded
  have time : (ledgerEntryToUnified ops entry).timestamp = some (timestampFromMs entry.timeMs) := rfl
  have status : eqIgnoreAsciiCase (ledgerEntryToUnified ops entry).status "completed" =
      entry.completed := by
    have label : ∀ completed : Bool,
        eqIgnoreAsciiCase (if completed then "completed" else "pending") "completed" = completed := by
      decide
    exact label entry.completed
  have direction : eqIgnoreAsciiCase (ledgerEntryToUnified ops entry).direction "out" =
      isSignNegative entry.amount := by
    have label : ∀ negative : Bool,
        eqIgnoreAsciiCase (if negative then "out" else "in") "out" = negative := by
      decide
    exact label (isSignNegative entry.amount)
  refine ⟨if isSignNegative entry.amount then magnitude.neg else magnitude, ?_, ?_⟩
  · split
    · rename_i negative
      rw [Decimal.value_neg, value, abs_of_neg ((isSignNegative_iff _).mp negative)]
    · rename_i positive
      rw [isSignNegative_iff, not_lt] at positive
      rw [value, abs_of_nonneg positive]
  · unfold ledgerEntryToPort
    simp only [wire, time, status, direction, timestampToMs_fromMs checks fits]
    by_cases early : checks = true ∧ entry.timeMs < -9223372036854775000
    · rw [if_pos early, if_pos early, Option.map_none]
    · rw [if_neg early, if_neg early, Option.map_some]
      rfl

/-- An entry comes back as it was just if its amount is not negative and, where overflow
is checked, its time is not one of the first milliseconds of the range. -/
theorem ledger_round_trip_iff (checks : Bool) (fits : fitsI64 entry.timeMs = true) :
    (∃ back, ledgerEntryToPort checks ops (ledgerEntryToUnified ops entry) = some (.ok back) ∧
        back.Same entry) ↔
      0 ≤ entry.amount.value ∧ (checks = true → -9223372036854775000 ≤ entry.timeMs) := by
  obtain ⟨magnitude, value, returned⟩ :=
    ledgerEntryToPort_unified documented held renders checks fits
  rw [returned]
  constructor
  · rintro ⟨back, came, same⟩
    split at came
    · cases came
    rename_i late
    obtain rfl := Except.ok.inj (Option.some.inj came)
    have amount : magnitude.value = entry.amount.value := same.amount
    rw [value] at amount
    exact ⟨abs_eq_self.mp amount, fun checked => not_lt.mp fun early => late ⟨checked, early⟩⟩
  · rintro ⟨positive, late⟩
    rw [if_neg fun both => absurd both.2 (not_lt.mpr (late both.1))]
    exact ⟨_, rfl, rfl, rfl, by rw [value, abs_of_nonneg positive], rfl, rfl, rfl⟩

end RoundTrip

def withdrawal : LedgerEntry := ⟨"l-1", "USDT", ⟨-100, 0⟩, "transfer", true, 1700000000000⟩

def deposit : LedgerEntry := { withdrawal with amount := ⟨100, 0⟩ }

theorem renders_deposit : Renders rustDecimal deposit.amount := by
  let numeral : Numeral := ⟨false, "100".toList, none, by decide, by simp⟩
  have units : numeral.coefficient = 100 := by decide +kernel
  have scale : numeral.scale = 0 := rfl
  have sign : numeral.negative = false := rfl
  refine ⟨numeral, by decide +kernel, ?_⟩
  simp [Numeral.number, units, scale, sign, Decimal.value, deposit]

theorem ledger_round_trip_iff_deposit :
    ∃ back, ledgerEntryToPort true rustDecimal (ledgerEntryToUnified rustDecimal deposit) =
      some (.ok back) ∧ back.Same deposit := by
  have held : Representable deposit.amount.value := ⟨⟨100, 0⟩, by decide, by decide, rfl⟩
  refine (ledger_round_trip_iff rustDecimal_documented held renders_deposit true (by decide)).mpr
    ⟨?_, fun _ => by decide⟩
  norm_num [deposit, Decimal.value]

/-- A withdrawal comes back as a deposit of the same amount. -/
theorem ledger_withdrawal_flipped :
    ledgerEntryToUnified rustDecimal withdrawal = ⟨"l-1", "USDT", "out", "transfer", some "-100",
        some ⟨1700000000, 0⟩, "completed"⟩ ∧
      ledgerEntryToPort true rustDecimal (ledgerEntryToUnified rustDecimal withdrawal) =
        some (.ok deposit) ∧ ¬ deposit.Same withdrawal := by
  refine ⟨by decide +kernel, by decide +kernel, fun same => ?_⟩
  have amount := same.amount
  norm_num [deposit, withdrawal, Decimal.value] at amount

end LongTrader.Session
