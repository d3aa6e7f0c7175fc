import LongTrader.Risk.Gateway
import LongTrader.Sdk.Contract.Trading
import LongTrader.Sdk.DecimalText

/-! An order from its specification in the Go SDK to the risk gate of the host: what is on the
wire for a price that is there and for one that is not. -/

namespace LongTrader.Sdk

/-- The bytes of a Go string that is text. -/
def utf8 (text : String) : Bytes := text.toUTF8.data.toList

/-- The text of a protobuf string, if it is valid. -/
def fromUtf8? (bytes : Bytes) : Option String := String.fromUTF8? ⟨bytes.toArray⟩

theorem fromUtf8?_utf8 (text : String) : fromUtf8? (utf8 text) = some text := by
  have valid : ByteArray.IsValidUTF8 ⟨(utf8 text).toArray⟩ := text.isValidUTF8
  exact dif_pos valid

/-- `session.OrderSpec`. -/
structure OrderSpec where
  Symbol : String
  Amount : String
  Price : Option String
  TriggerPrice : Option String
  Side : Contract.OrderSide
  Type' : Contract.OrderType
  TimeInForce : Contract.TimeInForce
  ClientOrderID : String
  PostOnly : Bool
  ReduceOnly : Bool

/-- `contract.ParseDecimal`. -/
def ParseDecimal (text : String) : Except Go.DecimalError Contract.Decimal :=
  match Go.validateDecimalText text with
  | .error error => .error error
  | .ok _ => .ok ⟨utf8 text⟩

/-- A decimal error, wrapped by where it was found. -/
structure BuildError where
  context : String
  error : Go.DecimalError
  deriving DecidableEq

/-- A price of the specification, which is left unpopulated if there is none. -/
def setDecimal (context : String) (text : Option String)
    (set : Contract.OrderRequest → Contract.Decimal → Contract.OrderRequest)
    (req : Contract.OrderRequest) : Except BuildError Contract.OrderRequest :=
  match text with
  | none => .ok req
  | some text => match ParseDecimal text with
    | .error error => .error ⟨context, error⟩
    | .ok decimal => .ok (set req decimal)

/-- `session.buildOrderRequest`. -/
def buildOrderRequest (spec : OrderSpec) : Except BuildError Contract.OrderRequest :=
  match ParseDecimal spec.Amount with
  | .error error => .error ⟨"session: order amount", error⟩
  | .ok amount =>
    let req : Contract.OrderRequest :=
      { ClientOrderID := utf8 spec.ClientOrderID, Symbol := utf8 spec.Symbol, Type' := spec.Type',
        Side := spec.Side, Amount := amount, TimeInForce := spec.TimeInForce,
        PostOnly := spec.PostOnly, ReduceOnly := spec.ReduceOnly }
    match setDecimal "session: order price" spec.Price
        (fun req price => { req with Price := price }) req with
    | .error error => .error error
    | .ok req =>
      setDecimal "session: order trigger price" spec.TriggerPrice
        (fun req trigger => { req with TriggerPrice := trigger }) req

/-- What `ParseDecimal` accepts. -/
def Parses (text : String) : Prop := ∃ parts, Go.validateDecimalText text = .ok parts

theorem ParseDecimal_ok {text : String} {decimal : Contract.Decimal}
    (parsed : ParseDecimal text = .ok decimal) : decimal = ⟨utf8 text⟩ ∧ Parses text := by
  unfold ParseDecimal at parsed
  split at parsed
  · cases parsed
  · exact ⟨(Except.ok.inj parsed).symm, _, by assumption⟩

/-- The decimal of a text, unpopulated where there is none. -/
def decimalField : Option String → Contract.Decimal
  | none => {}
  | some text => ⟨utf8 text⟩

theorem decimalField_eq (text : Option String) : decimalField text = ⟨utf8 (text.getD "")⟩ := by
  cases text with
  | none => rfl
  | some text => rfl

theorem setDecimal_ok {context : String} {text : Option String}
    {set : Contract.OrderRequest → Contract.Decimal → Contract.OrderRequest}
    {req out : Contract.OrderRequest} (blank : set req {} = req)
    (done : setDecimal context text set req = .ok out) :
    out = set req (decimalField text) ∧ ∀ value ∈ text, Parses value := by
  unfold setDecimal at done
  split at done
  · exact ⟨(Except.ok.inj done).symm.trans blank.symm, by simp⟩
  · split at done
    · cases done
    · rename_i parsed
      obtain ⟨rfl, accepted⟩ := ParseDecimal_ok parsed
      refine ⟨(Except.ok.inj done).symm, ?_⟩
      rintro value (_ | _)
      exact accepted

/-- A request that could be built carries the texts of the specification, all of them
decimals. -/
structure Built (spec : OrderSpec) (req : Contract.OrderRequest) : Prop where
  request : req =
    { ClientOrderID := utf8 spec.ClientOrderID, Symbol := utf8 spec.Symbol, Type' := spec.Type',
      Side := spec.Side, Amount := ⟨utf8 spec.Amount⟩, Price := decimalField spec.Price,
      TriggerPrice := decimalField spec.TriggerPrice, TimeInForce := spec.TimeInForce,
      PostOnly := spec.PostOnly, ReduceOnly := spec.ReduceOnly }
  amount : Parses spec.Amount
  price : ∀ text ∈ spec.Price, Parses text
  trigger : ∀ text ∈ spec.TriggerPrice, Parses text

theorem built_of_ok {spec : OrderSpec} {req : Contract.OrderRequest}
    (done : buildOrderRequest spec = .ok req) : Built spec req := by
  unfold buildOrderRequest at done
  split at done
  · cases done
  · rename_i parsed
    obtain ⟨rfl, amount⟩ := ParseDecimal_ok parsed
    dsimp only at done
    split at done
    · cases done
    · rename_i priced
      obtain ⟨rfl, price⟩ := setDecimal_ok rfl priced
      obtain ⟨rfl, trigger⟩ := setDecimal_ok rfl done
      exact ⟨rfl, amount, price, trigger⟩

/-- The fields of `trading.v1.OrderRequest` that the host reads, as they are on the wire. -/
structure WireOrder where
  clientOrderId : Bytes := []
  symbol : Bytes := []
  side : Int32 := 0
  amount : Option Contract.Decimal := none
  price : Option Contract.Decimal := none
  triggerPrice : Option Contract.Decimal := none

def WireOrder.cases : List (Int64 × Handler WireOrder) :=
  [(1, assign Field.AsString fun m v => { m with clientOrderId := v }),
   (2, assign Field.AsString fun m v => { m with symbol := v }),
   (4, assign Field.AsInt32 fun m v => { m with side := v }),
   (5, decodePointer fun m v => { m with amount := v }),
   (6, decodePointer fun m v => { m with price := v }),
   (7, decodePointer fun m v => { m with triggerPrice := v })]

/-- A decoded order of the host: its fields as text. -/
structure HostOrder extends OrderRequest where
  triggerPrice : Option String
  deriving DecidableEq

def sideOf (value : Int32) : OrderSide :=
  if value = 0 then .unspecified
  else if value = 1 then .buy
  else if value = 2 then .sell
  else .unknown value.toInt

/-- The order as text, if all of its strings are valid. -/
def WireOrder.text (order : WireOrder) : Option HostOrder := do
  let clientOrderId ← fromUtf8? order.clientOrderId
  let symbol ← fromUtf8? order.symbol
  let amount ← order.amount.mapM fun decimal => fromUtf8? decimal.Value
  let price ← order.price.mapM fun decimal => fromUtf8? decimal.Value
  let triggerPrice ← order.triggerPrice.mapM fun decimal => fromUtf8? decimal.Value
  pure ⟨⟨clientOrderId, symbol, sideOf order.side, amount, price⟩, triggerPrice⟩

/-- What protobuf promises of a generated decoder for a message none of whose fields occurs
twice: a field that is on the wire is present with what it carries, and no other is. -/
def DecoderDocumented (decode : Bytes → Option HostOrder) : Prop :=
  ∀ bytes fields order text, scan collect [] bytes = (fields, none) →
    (fields.map Field.Number).Nodup → unmarshal WireOrder.cases {} bytes = (order, none) →
    order.text = some text → decode bytes = some text

/-- No field of the number is on the wire. -/
def OffWire (num : Int64) (bytes : Bytes) : Prop :=
  ∃ fields, scan collect [] bytes = (fields, none) ∧ ∀ f ∈ fields, f.Number ≠ num

/-- The decimal that the host has of a text of the client, if there is one. -/
def SameDecimal : Option String → Option Decimal → Prop
  | none, none => True
  | some text, some decimal => Go.rat text = .ok decimal.value
  | _, _ => False

/-- Client and host agree on which prices an order has, and on what they are. -/
structure PresenceAgrees (decode : Bytes → Option HostOrder) (ops : DecimalOps)
    (spec : OrderSpec) (bytes : Bytes) : Prop where
  price_absent : spec.Price = none → OffWire 6 bytes
  trigger_absent : spec.TriggerPrice = none → OffWire 7 bytes
  reads : ∃ order intent trigger, decode bytes = some order ∧
    Risk.intentOf ops order.toOrderRequest = .ok intent ∧
    order.triggerPrice.mapM (Risk.decimalOf ops) = .ok trigger ∧
    SameDecimal spec.Price intent.price ∧ SameDecimal spec.TriggerPrice trigger

/-- What the Go SDK accepts is a decimal of the host, with the same value. -/
theorem decimalOf_of_parses {ops : DecimalOps} (documented : ops.Documented) {text : String}
    (parses : Parses text) :
    ∃ decimal, Risk.decimalOf ops text = .ok decimal ∧ Go.rat text = .ok decimal.value := by
  obtain ⟨numeral, same, small⟩ := go_accepts_iff.mp parses
  obtain ⟨decimal, parsed, value⟩ := documented.exact numeral text same (representable_of_small small)
  refine ⟨decimal, ?_, by rw [rat_numeral same small, value]⟩
  rw [Risk.decimalOf, commonToDecimal_numeral same, parsed]
  rfl

section Wire

variable {spec : OrderSpec} {req : Contract.OrderRequest} (built : Built spec req)

include built

theorem Built.numbers :
    (Message.MarshalTo req).map Write.number = [1, 2, 3, 4, 5, 6, 7, 8, 9, 10] := by
  rw [built.request]
  rfl

theorem Built.scanned (short : (Marshal req).length < 2 ^ 63) :
    scan collect [] (Marshal req) = ((Message.MarshalTo req).filterMap Write.field, none) := by
  refine scan_encodeAll [] (fun f member => ?_) short
  have listed := (numbers_sublist (Message.MarshalTo req)).subset (List.mem_map_of_mem member)
  rw [built.numbers] at listed
  have all : ([1, 2, 3, 4, 5, 6, 7, 8, 9, 10] : List Int64).all (fun num => Numbered num) = true := rfl
  exact of_decide_eq_true (List.all_eq_true.mp all _ listed)

theorem Built.distinct :
    (((Message.MarshalTo req).filterMap Write.field).map Field.Number).Nodup := by
  refine (numbers_sublist (Message.MarshalTo req)).nodup ?_
  rw [built.numbers]
  decide

/-- The prices are on the wire, populated or not. -/
theorem Built.not_offWire {num : Int64} (price : num = 6 ∨ num = 7)
    (short : (Marshal req).length < 2 ^ 63) : ¬ OffWire num (Marshal req) := by
  rintro ⟨fields, scanned, absent⟩
  rw [built.scanned short] at scanned
  obtain rfl := (Prod.mk.inj scanned).1
  have written (m : Contract.Decimal) (member : Write.value num m ∈ Message.MarshalTo req) : False :=
    absent ⟨num, WireBytes, 0, Marshal m⟩ (List.mem_filterMap.mpr ⟨_, member, rfl⟩) rfl
  rw [built.request] at written
  rcases price with rfl | rfl
  · exact written (decimalField spec.Price) (.tail _ <| .tail _ <| .tail _ <| .tail _ <| .tail _ <| .head _)
  · exact written (decimalField spec.TriggerPrice)
      (.tail _ <| .tail _ <| .tail _ <| .tail _ <| .tail _ <| .tail _ <| .head _)

theorem Built.unmarshalled (short : (Marshal req).length < 2 ^ 63) :
    unmarshal WireOrder.cases {} (Marshal req) =
      (⟨req.ClientOrderID, req.Symbol, req.Side, some req.Amount, some req.Price,
        some req.TriggerPrice⟩, none) := by
  have params : req.Params = .empty := by rw [built.request]
  have writes : Message.MarshalTo req = [.string 1 req.ClientOrderID, .string 2 req.Symbol,
      .int32 3 req.Type', .int32 4 req.Side, .value 5 req.Amount, .value 6 req.Price,
      .value 7 req.TriggerPrice, .int32 8 req.TimeInForce, .bool 9 req.PostOnly,
      .bool 10 req.ReduceOnly] := by
    show req.MarshalTo = _
    rw [Contract.OrderRequest.MarshalTo, params]
    rfl
  refine Reads.scan_eq (by decide) ?_ short
  rw [writes]
  exact .cons (.string rfl rfl) <| .cons (.string rfl rfl) <| .cons (.skipped 3 rfl (by decide) rfl) <|
    .cons (.int32 rfl rfl) <| .cons (.pointer (v := some _) rfl rfl) <|
    .cons (.pointer (v := some _) rfl rfl) <| .cons (.pointer (v := some _) rfl rfl) <|
    .cons (.skipped 8 rfl (by decide) rfl) <| .cons (.skipped 9 rfl (by decide) rfl) <|
    .cons (.skipped 10 rfl (by decide) rfl) .nil

/-- The host reads every text of the specification, and the empty one where there is none. -/
theorem Built.decoded {decode : Bytes → Option HostOrder} (documented : DecoderDocumented decode)
    (short : (Marshal req).length < 2 ^ 63) :
    decode (Marshal req) = some ⟨⟨spec.ClientOrderID, spec.Symbol, sideOf spec.Side,
      some spec.Amount, some (spec.Price.getD "")⟩, some (spec.TriggerPrice.getD "")⟩ := by
  refine documented _ _ _ _ (built.scanned short) built.distinct (built.unmarshalled short) ?_
  rw [built.request]
  simp [WireOrder.text, decimalField_eq, fromUtf8?_utf8]

end Wire

/-- Client and host agree on the prices of an order just if it has both of them. -/
theorem presence_agrees_iff {decode : Bytes → Option HostOrder}
    (decodes : DecoderDocumented decode) {ops : DecimalOps} (decimals : ops.Documented)
    {spec : OrderSpec} {req : Contract.OrderRequest} (built : buildOrderRequest spec = .ok req)
    (short : (Marshal req).length < 2 ^ 63) :
    PresenceAgrees decode ops spec (Marshal req) ↔
      spec.Price.isSome ∧ spec.TriggerPrice.isSome := by
  have shape := built_of_ok built
  constructor
  · intro agrees
    constructor
    · by_contra absent
      exact shape.not_offWire (.inl rfl) short
        (agrees.price_absent (Option.not_isSome_iff_eq_none.mp absent))
    · by_contra absent
      exact shape.not_offWire (.inr rfl) short
        (agrees.trigger_absent (Option.not_isSome_iff_eq_none.mp absent))
  · rintro ⟨priced, triggered⟩
    obtain ⟨price, hasPrice⟩ := Option.isSome_iff_exists.mp priced
    obtain ⟨trigger, hasTrigger⟩ := Option.isSome_iff_exists.mp triggered
    obtain ⟨qty, amountRead, -⟩ := decimalOf_of_parses decimals shape.amount
    obtain ⟨priceRead, readPrice, samePrice⟩ := decimalOf_of_parses decimals (shape.price price hasPrice)
    obtain ⟨triggerRead, readTrigger, sameTrigger⟩ :=
      decimalOf_of_parses decimals (shape.trigger trigger hasTrigger)
    have order := shape.decoded decodes short
    rw [hasPrice, hasTrigger] at order
    refine ⟨by simp [hasPrice], by simp [hasTrigger], _,
      ⟨spec.Symbol, sideOf spec.Side = .buy, qty, some priceRead⟩, some triggerRead, order, ?_, ?_, ?_, ?_⟩
    · simp [Risk.intentOf, amountRead, readPrice]
    · simp [readTrigger]
    · rw [hasPrice]
      exact samePrice
    · rw [hasTrigger]
      exact sameTrigger

/-- The decoder that goes by the protobuf documentation alone. -/
def plainDecode (bytes : Bytes) : Option HostOrder :=
  match unmarshal WireOrder.cases {} bytes with
  | (order, none) => order.text
  | (_, some _) => none

theorem plainDecode_documented : DecoderDocumented plainDecode := by
  intro bytes fields order text _ _ read valid
  rw [plainDecode, read]
  exact valid

/-- A limit order with a trigger. -/
def stopLimitSpec : OrderSpec :=
  ⟨"BTC/USDT", "0.5", some "90000", some "89500.5", 1, 4, 1, "c-1", false, false⟩

/-- A market order, with neither price. -/
def marketSpec : OrderSpec := ⟨"BTC/USDT", "0.5", none, none, 1, 1, 0, "c-2", false, false⟩

theorem presence_agrees_iff_stop_limit :
    ∃ req, buildOrderRequest stopLimitSpec = .ok req ∧
      PresenceAgrees plainDecode rustDecimal stopLimitSpec (Marshal req) := by
  have built : buildOrderRequest stopLimitSpec = .ok
      { ClientOrderID := utf8 "c-1", Symbol := utf8 "BTC/USDT", Type' := 4, Side := 1,
        Amount := ⟨utf8 "0.5"⟩, Price := ⟨utf8 "90000"⟩, TriggerPrice := ⟨utf8 "89500.5"⟩,
        TimeInForce := 1 } := by
    decide +kernel
  exact ⟨_, built, (presence_agrees_iff plainDecode_documented rustDecimal_documented built
    (by decide +kernel)).mpr ⟨rfl, rfl⟩⟩

/-- The price that a market order does not have is on the wire, and the gate refuses it. -/
theorem market_order_refused :
    ∃ req, buildOrderRequest marketSpec = .ok req ∧
      ¬ PresenceAgrees plainDecode rustDecimal marketSpec (Marshal req) ∧
      ∃ order, plainDecode (Marshal req) = some order ∧
        Risk.intentOf rustDecimal order.toOrderRequest = .error (.decimal .empty) := by
  have built : buildOrderRequest marketSpec = .ok
      { ClientOrderID := utf8 "c-2", Symbol := utf8 "BTC/USDT", Type' := 1, Side := 1,
        Amount := ⟨utf8 "0.5"⟩ } := by
    decide +kernel
  refine ⟨_, built, fun agrees => ?_, _,
    (built_of_ok built).decoded plainDecode_documented (by decide +kernel), by decide +kernel⟩
  exact (built_of_ok built).not_offWire (.inl rfl) (by decide +kernel) (agrees.price_absent rfl)

end LongTrader.Sdk
