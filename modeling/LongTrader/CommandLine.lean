import LongTrader.DecimalCodec
import LongTrader.Risk.Gateway
import LongTrader.Strategy.Order

/-! Orders from the command line: the money literals that it takes, and what the host's gate reads of the order
that it sends. -/

namespace LongTrader.CommandLine

def GRAMMAR : String := "[-]?digits[.digits]"

def MAX_FRACTION_DIGITS : Nat := 28

/-- Why a text falls outside `GRAMMAR`, if it does. -/
def grammarViolation (s : List Char) : Option String :=
  let body := stripMinus s
  let halves := (splitPoint body).getD (body, [])
  if s.contains '_' then some "digit separators are not accepted"
  else if s.contains 'e' || s.contains 'E' then some "exponents are not accepted"
  else if s.head? = some '+' then some "a leading `+` is not accepted"
  else if !isDigits halves.1 then some "expected one or more digits before the decimal point"
  else if body.contains '.' && !isDigits halves.2 then
    some "expected one or more digits after the decimal point"
  else if MAX_FRACTION_DIGITS < halves.2.length then some "too many fractional digits"
  else none

/-- Why an order is not sent. -/
inductive Report where
  | badDecimal (field input reason : String)
  | unparsed (field input source : String)
  | notPositive (field input : String)
  deriving DecidableEq, Repr

/-- The text of a report; `quoted` is the quoting of `{:?}`. -/
def Report.message (quoted : String → String) : Report → String
  | .badDecimal field input reason =>
    "bad decimal for " ++ field ++ ": " ++ quoted input ++ " (want " ++ GRAMMAR ++ ": " ++ reason ++ ")"
  | .unparsed field input _ => "bad decimal for " ++ field ++ ": " ++ quoted input
  | .notPositive field input => field ++ " must be greater than zero, got " ++ quoted input

def Report.field : Report → String
  | .badDecimal field _ _ | .unparsed field _ _ | .notPositive field _ => field

section

variable (ops : DecimalOps)

def parseDec (s field : String) : Except Report Decimal :=
  match grammarViolation s.toList with
  | some reason => .error (.badDecimal field s reason)
  | none => match ops.parse s with
    | .error source => .error (.unparsed field s source)
    | .ok value => .ok value

def parsePositiveDec (s field : String) : Except Report Decimal := do
  let value ← parseDec ops s field
  if Decimal.zero.lt value then return value else throw (.notPositive field s)

/-- `Option::map` and `transpose`, and the decimal as it goes onto the wire. -/
def written (parse : String → Except Report Decimal) : Option String → Except Report (Option String)
  | none => .ok none
  | some text => (parse text).map fun value => some (ops.render value)

/-- `trading.v1.OrderRequest` as `place_order` fills it. -/
structure PlacedOrder extends OrderRequest where
  type : Strategy.OrderType
  takeProfit : Option String
  stopLoss : Option String
  deriving DecidableEq, Repr

/-- The order that `place_order` sends, or why it sends none. -/
def placeOrder (clientOrderId symbol : String) (side : OrderSide) (quantity : String)
    (price takeProfit stopLoss : Option String) : Except Report PlacedOrder := do
  let type := if price.isSome then Strategy.OrderType.limit else .market
  let amount ← parsePositiveDec ops quantity "quantity"
  let limitPrice ← written ops (parsePositiveDec ops · "price") price
  let profit ← written ops (parseDec ops · "take_profit") takeProfit
  let loss ← written ops (parseDec ops · "stop_loss") stopLoss
  return ⟨⟨clientOrderId, symbol, side, some (ops.render amount), limitPrice⟩, type, profit, loss⟩

end

section Grammar

theorem splitPoint_none {chars : List Char} (whole : splitPoint chars = none) : '.' ∉ chars := by
  induction chars with
  | nil => simp
  | cons c rest ih =>
    rw [splitPoint] at whole
    split at whole
    · cases whole
    · rename_i other
      rw [List.mem_cons, not_or]
      exact ⟨Ne.symm other, ih (Option.map_eq_none_iff.mp whole)⟩

/-- A check that is passed leaves the ones behind it. -/
theorem passes_iff {broken : Prop} [Decidable broken] {reason : String} {rest : Option String} :
    (if broken then some reason else rest) = none ↔ ¬broken ∧ rest = none := by
  split <;> simp [*]

theorem nonempty_of_isDigits {chars : List Char} (digits : isDigits chars = true) : chars.isEmpty = false := by
  rw [List.isEmpty_eq_false_iff]
  exact (isDigits_iff.mp digits).1

/-- The literals of the command line are the payloads of the contract. -/
theorem grammarViolation_none_iff (s : List Char) :
    grammarViolation s = none ↔ LongTrader.grammarViolation s = none := by
  rw [grammarViolation_eq]
  cases cut : splitPoint (stripMinus s) with
  | none =>
    have pointless : '.' ∉ stripMinus s := splitPoint_none cut
    have halved : pieces (stripMinus s) = (stripMinus s, none) := by rw [pieces, cut]
    simp only [grammarViolation, cut, halved, Option.getD_none, passes_iff]
    refine and_congr_right fun _ => and_congr_right fun _ => and_congr_right fun _ => ?_
    cases digits : isDigits (stripMinus s) with
    | false => simp
    | true => simp [pointless, nonempty_of_isDigits digits]
  | some halves =>
    obtain ⟨whole, fraction⟩ := halves
    have pointed : (stripMinus s).contains '.' = true := by simp [splitPoint_some cut]
    have halved : pieces (stripMinus s) = (whole, some fraction) := by rw [pieces, cut]
    simp only [grammarViolation, cut, halved, Option.getD_some, passes_iff, pointed, Bool.true_and]
    refine and_congr_right fun _ => and_congr_right fun _ => and_congr_right fun _ => ?_
    cases digits : isDigits whole with
    | false => simp
    | true =>
      cases more : isDigits fraction with
      | false => simp
      | true =>
        simp [nonempty_of_isDigits digits, nonempty_of_isDigits more, MAX_FRACTION_DIGITS, Decimal.MAX_SCALE]

end Grammar

section Order

variable {ops : DecimalOps}

/-- A literal is taken just if the host decodes it, and for the number that the host makes of it. -/
theorem parseDec_ok_iff {s field : String} {value : Decimal} :
    parseDec ops s field = .ok value ↔ commonToDecimal ops s = .ok value := by
  rw [parseDec]
  cases violated : grammarViolation s.toList with
  | some reason =>
    have same := (grammarViolation_none_iff s.toList).not.mp (by rw [violated]; simp)
    refine iff_of_false (by simp) fun decoded => same ?_
    obtain ⟨numeral, text, _⟩ := numeral_of_decoded decoded
    rw [← text, numeral.grammarViolation_text]
  | none =>
    obtain ⟨numeral, text⟩ := numeral_of_grammar ((grammarViolation_none_iff s.toList).mp violated)
    rw [commonToDecimal_numeral text]
    cases ops.parse s with
    | error source => simp
    | ok decimal => simp

theorem parsePositiveDec_ok_iff {s field : String} {value : Decimal} :
    parsePositiveDec ops s field = .ok value ↔ commonToDecimal ops s = .ok value ∧ 0 < value.value := by
  rw [parsePositiveDec, ← @parseDec_ok_iff ops s field]
  cases parsed : parseDec ops s field with
  | error report => simp [bind, Except.bind]
  | ok found =>
    show (if Decimal.zero.lt found = true then Except.ok found else .error (Report.notPositive field s)) = .ok value ↔ _
    have sign : Decimal.zero.lt found = true ↔ 0 < found.value := by rw [Decimal.lt_iff, Decimal.value_zero]
    split
    · rename_i positive
      refine ⟨fun same => ?_, fun both => both.1⟩
      obtain rfl := Except.ok.inj same
      exact ⟨rfl, sign.mp positive⟩
    · rename_i refused
      refine iff_of_false nofun fun both => refused (sign.mpr ?_)
      rw [Except.ok.inj both.1]
      exact both.2

/-- What the host reads of a decimal that may be absent. -/
def Reads (ops : DecimalOps) : Option String → Option Decimal → Prop :=
  Option.Rel fun text value => commonToDecimal ops text = .ok value

theorem written_ok_iff {parse : String → Except Report Decimal} {text wire : Option String} :
    written ops parse text = .ok wire ↔
      ∃ value, Option.Rel (fun text value => parse text = .ok value) text value ∧ wire = value.map ops.render := by
  cases text with
  | none =>
    constructor
    · intro same
      obtain rfl := Except.ok.inj same
      exact ⟨none, .none, rfl⟩
    · rintro ⟨value, read, rfl⟩
      cases read
      rfl
  | some text =>
    constructor
    · intro same
      rw [written] at same
      cases parsed : parse text with
      | error report => rw [parsed] at same; cases same
      | ok value =>
        rw [parsed] at same
        exact ⟨some value, .some parsed, (Except.ok.inj same).symm⟩
    · rintro ⟨value, read, rfl⟩
      cases read with
      | some parsed => rw [written, parsed]; rfl

theorem bind_ok_iff {ε α β : Type} {first : Except ε α} {next : α → Except ε β} {last : β} :
    (first >>= next) = .ok last ↔ ∃ middle, first = .ok middle ∧ next middle = .ok last := by
  cases first with
  | error report => simp [bind, Except.bind]
  | ok middle => simp [bind, Except.bind]

theorem rel_and_iff {α β : Type} {reads : α → β → Prop} {good : β → Prop} {text : Option α} {value : Option β} :
    Option.Rel (fun text value => reads text value ∧ good value) text value ↔
      Option.Rel reads text value ∧ ∀ read ∈ value, good read := by
  constructor
  · intro related
    cases related with
    | none => exact ⟨.none, by simp⟩
    | some both => exact ⟨.some both.1, by simpa using both.2⟩
  · rintro ⟨related, each⟩
    cases related with
    | none => exact .none
    | some read => exact .some ⟨read, each _ rfl⟩

theorem exists_rel_iff {α β : Type} {reads : α → β → Prop} {text : Option α} :
    (∃ value, Option.Rel reads text value) ↔ ∀ typed ∈ text, ∃ value, reads typed value := by
  cases text with
  | none => exact iff_of_true ⟨none, .none⟩ (by simp)
  | some typed =>
    simp only [Option.mem_some_iff, forall_eq']
    constructor
    · rintro ⟨value, related⟩
      cases related with
      | some read => exact ⟨_, read⟩
    · rintro ⟨value, read⟩
      exact ⟨some value, .some read⟩

variable {clientOrderId symbol quantity : String} {side : OrderSide} {price takeProfit stopLoss : Option String}

/-- What is sent: the literals that the host reads, written out again. -/
theorem placeOrder_ok_iff {order : PlacedOrder} :
    placeOrder ops clientOrderId symbol side quantity price takeProfit stopLoss = .ok order ↔
      ∃ amount limit profit loss, (commonToDecimal ops quantity = .ok amount ∧ 0 < amount.value) ∧
        (Reads ops price limit ∧ ∀ bid ∈ limit, 0 < bid.value) ∧ Reads ops takeProfit profit ∧
        Reads ops stopLoss loss ∧ order = ⟨⟨clientOrderId, symbol, side, some (ops.render amount),
          limit.map ops.render⟩, if price.isSome then .limit else .market, profit.map ops.render,
          loss.map ops.render⟩ := by
  simp only [placeOrder, bind_ok_iff, written_ok_iff, parsePositiveDec_ok_iff, rel_and_iff, parseDec_ok_iff]
  constructor
  · rintro ⟨amount, read, _, ⟨limit, price, rfl⟩, _, ⟨profit, takes, rfl⟩, _, ⟨loss, stops, rfl⟩, same⟩
    exact ⟨amount, limit, profit, loss, read, price, takes, stops, (Except.ok.inj same).symm⟩
  · rintro ⟨amount, limit, profit, loss, read, price, takes, stops, rfl⟩
    exact ⟨amount, read, _, ⟨limit, price, rfl⟩, _, ⟨profit, takes, rfl⟩, _, ⟨loss, stops, rfl⟩, rfl⟩

/-- What is written out is read as it was typed. -/
theorem Reads.written (lossless : ops.Lossless) {text : Option String} {value : Option Decimal}
    (read : Reads ops text value) : Reads ops (value.map ops.render) value := by
  cases read with
  | none => exact .none
  | some decoded => exact .some ((decimal_codec_round_trip lossless).2 _ _ decoded).2

theorem intentOf_written {order : OrderRequest} {amount : Decimal} {text : String} {limit : Option Decimal}
    (sized : order.amount = some text) (decoded : commonToDecimal ops text = .ok amount)
    (priced : Reads ops order.price limit) :
    Risk.intentOf ops order = .ok ⟨order.symbol, order.side = .buy, amount, limit⟩ := by
  have qty : Risk.decimalOf ops text = .ok amount := by rw [Risk.decimalOf, decoded]; rfl
  rw [Risk.intentOf, sized]
  simp only [qty]
  cases told : order.price with
  | none =>
    rw [told] at priced
    cases priced
    rfl
  | some price =>
    rw [told] at priced
    cases priced with
    | some read =>
      simp only [Risk.decimalOf, read]
      rfl

end Order

/-- A literal that the host decodes. -/
def Decodes (ops : DecimalOps) (text : String) : Prop := ∃ value, commonToDecimal ops text = .ok value

def DecodesPositive (ops : DecimalOps) (text : String) : Prop :=
  ∃ value, commonToDecimal ops text = .ok value ∧ 0 < value.value

theorem placeOrder_sends_iff {ops : DecimalOps} {clientOrderId symbol quantity : String} {side : OrderSide}
    {price takeProfit stopLoss : Option String} :
    (∃ order, placeOrder ops clientOrderId symbol side quantity price takeProfit stopLoss = .ok order) ↔
      DecodesPositive ops quantity ∧ (∀ text ∈ price, DecodesPositive ops text) ∧
        (∀ text ∈ takeProfit, Decodes ops text) ∧ ∀ text ∈ stopLoss, Decodes ops text := by
  constructor
  · rintro ⟨order, sent⟩
    obtain ⟨amount, limit, profit, loss, sized, priced, takes, stops, _⟩ := placeOrder_ok_iff.mp sent
    exact ⟨⟨amount, sized⟩, exists_rel_iff.mp ⟨limit, rel_and_iff.mpr priced⟩, exists_rel_iff.mp ⟨profit, takes⟩,
      exists_rel_iff.mp ⟨loss, stops⟩⟩
  · rintro ⟨⟨amount, sized⟩, priced, takes, stops⟩
    obtain ⟨limit, priced⟩ := exists_rel_iff.mpr priced
    obtain ⟨profit, takes⟩ := exists_rel_iff.mpr takes
    obtain ⟨loss, stops⟩ := exists_rel_iff.mpr stops
    exact ⟨_, placeOrder_ok_iff.mpr
      ⟨amount, limit, profit, loss, sized, rel_and_iff.mp priced, takes, stops, rfl⟩⟩

/-- An order is sent just if the host would decode every literal of it, and its quantity and its price are above
zero; and what the host's gate then measures is what was typed, a market order for the want of a price. -/
theorem order_measured_as_typed {ops : DecimalOps} (lossless : ops.Lossless) (clientOrderId symbol quantity : String)
    (side : OrderSide) (price takeProfit stopLoss : Option String) :
    let placed := placeOrder ops clientOrderId symbol side quantity price takeProfit stopLoss
    ((∃ order, placed = .ok order) ↔ DecodesPositive ops quantity ∧ (∀ text ∈ price, DecodesPositive ops text) ∧
      (∀ text ∈ takeProfit, Decodes ops text) ∧ ∀ text ∈ stopLoss, Decodes ops text) ∧
    ∀ order, placed = .ok order → ∃ amount limit profit loss,
      commonToDecimal ops quantity = .ok amount ∧ Reads ops price limit ∧ Reads ops takeProfit profit ∧
        Reads ops stopLoss loss ∧
      Risk.intentOf ops order.toOrderRequest = .ok ⟨symbol, side = .buy, amount, limit⟩ ∧
        Reads ops order.takeProfit profit ∧ Reads ops order.stopLoss loss ∧
      (order.type = .limit ↔ limit.isSome) := by
  refine ⟨placeOrder_sends_iff, fun order sent => ?_⟩
  obtain ⟨amount, limit, profit, loss, ⟨decoded, _⟩, ⟨priced, _⟩, takes, stops, rfl⟩ := placeOrder_ok_iff.mp sent
  have wire := (decimal_codec_round_trip lossless).2 _ _ decoded
  refine ⟨amount, limit, profit, loss, decoded, priced, takes, stops,
    intentOf_written rfl wire.2 (priced.written lossless), takes.written lossless, stops.written lossless, ?_⟩
  cases priced with
  | none => simp
  | some read => simp

/-- A limit order with the decimals of the worker. -/
theorem order_measured_as_typed_limit :
    let placed := placeOrder rustDecimal "cli-1" "BTC/USDT" .buy "0.50" (some "90000") none (some "-1")
    ((∃ order, placed = .ok order) ↔ DecodesPositive rustDecimal "0.50" ∧
      (∀ text ∈ some "90000", DecodesPositive rustDecimal text) ∧
      (∀ text ∈ (none : Option String), Decodes rustDecimal text) ∧ ∀ text ∈ some "-1", Decodes rustDecimal text) ∧
    ∀ order, placed = .ok order → ∃ amount limit profit loss,
      commonToDecimal rustDecimal "0.50" = .ok amount ∧ Reads rustDecimal (some "90000") limit ∧
        Reads rustDecimal none profit ∧ Reads rustDecimal (some "-1") loss ∧
      Risk.intentOf rustDecimal order.toOrderRequest = .ok ⟨"BTC/USDT", true, amount, limit⟩ ∧
        Reads rustDecimal order.takeProfit profit ∧ Reads rustDecimal order.stopLoss loss ∧
      (order.type = .limit ↔ limit.isSome) :=
  order_measured_as_typed rustDecimal_lossless "cli-1" "BTC/USDT" "0.50" .buy (some "90000") none (some "-1")

end LongTrader.CommandLine
