import LongTrader.Sdk.Contract.Worker

/-! Every message of the Go contract is decoded as it was encoded, but for the elements that its
repeated fields omit. -/

namespace LongTrader.Sdk.Contract

/-- The types of the contract that have a `MarshalTo` and an `Unmarshal`. -/
def contractMessages : List MessageType :=
  commonMessages ++ tradingMessages ++ marketMessages ++ workerMessages

/-- A message is decoded as it was just if no repeated string of it has an empty element and no
repeated message a nil one. -/
theorem messages_round_trip_iff :
    ∀ k ∈ contractMessages, ∀ m : k.Carrier, (Marshal m).length < 2 ^ 63 →
      (Message.Unmarshal (Marshal m) = (m, none) ↔ k.Intact m) := by
  intro k listed
  simp only [contractMessages, List.mem_append] at listed
  rcases listed with ((common | trading) | market) | worker
  · exact commonMessages_roundTrip k common
  · exact tradingMessages_roundTrip k trading
  · exact marketMessages_roundTrip k market
  · exact workerMessages_roundTrip k worker

theorem mem_contractMessages_getPositionsRequest :
    (⟨GetPositionsRequest, GetPositionsRequest.Intact⟩ : MessageType) ∈ contractMessages := by
  simp [contractMessages, tradingMessages]

theorem messages_round_trip_iff_two_symbols :
    let m : GetPositionsRequest := { ExchangeID := some {}, Symbols := [[66], [69]] }
    Message.Unmarshal (Marshal m) = (m, none) :=
  (messages_round_trip_iff _ mem_contractMessages_getPositionsRequest
    { ExchangeID := some {}, Symbols := [[66], [69]] } (by decide +kernel)).mpr
    (show [] ∉ [[66], [69]] by decide)

/-- A request for the positions of the empty symbol is decoded as one for all positions. -/
theorem empty_symbol_lost :
    let m : GetPositionsRequest := { Symbols := [[]] }
    (Marshal m).length < 2 ^ 63 ∧ Message.Unmarshal (Marshal m) = (({} : GetPositionsRequest), none) ∧
      Message.Unmarshal (Marshal m) ≠ (m, none) := by
  have read := GetPositionsRequest.returns { Symbols := [[]] } (by decide +kernel)
  have kept : GetPositionsRequest.kept { Symbols := [[]] } = {} := rfl
  rw [kept] at read
  refine ⟨by decide +kernel, read, ?_⟩
  rw [read]
  intro same
  cases (Prod.mk.inj same).1

end LongTrader.Sdk.Contract
