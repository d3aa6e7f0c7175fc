import LongTrader.Strategy.SimpleGrid

/-! The state file of the simple grid, which holds the ladder as JSON. A ladder that the grid has saved
reads back as it was. -/

namespace LongTrader.Strategy.SimpleGrid

/-- `serde_json::Value`. -/
inductive Value where
  | null
  | bool (value : Bool)
  | number (literal : String)
  | string (text : String)
  | array (items : List Value)
  | object (fields : List (String × Value))

def Value.asStr : Value → Option String
  | .string text => some text
  | _ => none

def Value.asArray : Value → Option (List Value)
  | .array items => some items
  | _ => none

/-- `Value::get`: no field of what is not an object. -/
def Value.get (key : String) : Value → Option Value
  | .object fields => fields.lookup key
  | _ => none

/-- How a price is written and read: `Decimal::to_string` and `str::parse`. -/
structure PriceText (P : Type) where
  render : P → String
  parse : String → Except String P

/-- Why a file does not restore a ladder. -/
inductive RestoreError where
  | notAList (path : String)
  | noPrice
  | notADecimal (reason : String)
  | notASide (found : Option String)
  deriving DecidableEq, Repr

/-- The documents of the state files, by path. -/
abbrev Documents := String → Option Value

section Json

variable {P : Type} (text : PriceText P)

def levelJson (level : GridLevel P) : Value :=
  .object [
    ("price", .string (text.render level.price)),
    ("side", .string (if level.side = .buy then "buy" else "sell")),
    ("client_order_id", .string level.clientOrderId),
    ("order_id", .string level.orderId)]

def ladderJson (levels : List (GridLevel P)) : Value := .array (levels.map (levelJson text))

/-- `level_from_json`, with the ULID of a row that has no client order id. -/
def levelFromJson (ulid : String) (row : Value) : Except RestoreError (GridLevel P) :=
  let field (key : String) : Option String := (row.get key).bind Value.asStr
  match field "price" with
  | none => .error .noPrice
  | some payload => match text.parse payload with
    | .error reason => .error (.notADecimal reason)
    | .ok price =>
      let level (side : OrderSide) : GridLevel P :=
        let storedCoid := (field "client_order_id").getD ""
        ⟨price, side, if storedCoid = "" then coid ulid else storedCoid, (field "order_id").getD ""⟩
      match field "side" with
      | some "buy" => .ok (level .buy)
      | some "sell" => .ok (level .sell)
      | other => .error (.notASide other)

end Json

section Restore

variable {P : Type} [LinearOrder P] (text : PriceText P)

/-- The loop over the rows, which drops the levels outside of the band. -/
def restoreRows (config : SimpleGridConfig P) (ulids : Nat → String) :
    Nat → List Value → Except RestoreError (List (GridLevel P))
  | _, [] => .ok []
  | count, row :: rest => do
    let level ← levelFromJson text (ulids count) row
    let levels ← restoreRows config ulids (count + 1) rest
    return if config.inBand level.price then level :: levels else levels

/-- `persistence::restore_levels`, of a file that holds JSON or is missing. -/
def restoreDocument (config : SimpleGridConfig P) (documents : Documents) (ulids : Nat → String) :
    Except RestoreError (List (GridLevel P)) :=
  match config.stateFile with
  | none => .ok []
  | some path => match documents path with
    | none => .ok []
    | some document => match document.asArray with
      | none => .error (.notAList path)
      | some rows => restoreRows text config ulids 0 rows

/-- `persistence::persist_levels`, of the document that it saves. -/
def persistDocument (config : SimpleGridConfig P) (levels : List (GridLevel P)) (documents : Documents) :
    Documents :=
  match config.stateFile with
  | none => documents
  | some path => Function.update documents path (some (ladderJson text levels))

end Restore

section RoundTrip

variable {P : Type} {text : PriceText P}

/-- A level as the grid makes them: bought or sold, under an id of its own. -/
structure GridLevel.Written (level : GridLevel P) : Prop where
  side : level.side = .buy ∨ level.side = .sell
  clientOrderId : level.clientOrderId ≠ ""

theorem levelFromJson_levelJson (reads : ∀ price, text.parse (text.render price) = .ok price)
    {level : GridLevel P} (written : level.Written) (ulid : String) :
    levelFromJson text ulid (levelJson text level) = .ok level := by
  obtain ⟨price, side, clientOrderId, orderId⟩ := level
  have named : clientOrderId ≠ "" := written.clientOrderId
  have priceField : ((levelJson text ⟨price, side, clientOrderId, orderId⟩).get "price").bind Value.asStr =
      some (text.render price) := rfl
  have sideField : ((levelJson text ⟨price, side, clientOrderId, orderId⟩).get "side").bind Value.asStr =
      some (if side = .buy then "buy" else "sell") := rfl
  have coidField : ((levelJson text ⟨price, side, clientOrderId, orderId⟩).get "client_order_id").bind
      Value.asStr = some clientOrderId := rfl
  have idField : ((levelJson text ⟨price, side, clientOrderId, orderId⟩).get "order_id").bind Value.asStr =
      some orderId := rfl
  rw [levelFromJson]
  simp only [priceField, sideField, coidField, idField, reads, Option.getD_some, if_neg named]
  rcases written.side with rfl | rfl
  · rfl
  · rfl

/-- The documents of the ladders that are saved. -/
def documentsOf (text : PriceText P) (files : Files P) : Documents :=
  fun path => (files path).map (ladderJson text)

theorem documentsOf_persistLevels (config : SimpleGridConfig P) (levels : List (GridLevel P))
    (files : Files P) :
    documentsOf text (persistLevels config levels files) =
      persistDocument text config levels (documentsOf text files) := by
  unfold persistLevels persistDocument documentsOf
  cases config.stateFile with
  | none => rfl
  | some path =>
    funext other
    by_cases same : other = path
    · subst same
      simp
    · simp [same]

variable [LinearOrder P]

theorem restoreRows_ladder (reads : ∀ price, text.parse (text.render price) = .ok price)
    (config : SimpleGridConfig P) (ulids : Nat → String) (count : Nat) {levels : List (GridLevel P)}
    (written : ∀ level ∈ levels, level.Written) :
    restoreRows text config ulids count (levels.map (levelJson text)) =
      .ok (levels.filter fun level => config.inBand level.price) := by
  induction levels generalizing count with
  | nil => rfl
  | cons level rest ih =>
    obtain ⟨first, others⟩ := List.forall_mem_cons.mp written
    rw [List.map_cons, restoreRows, levelFromJson_levelJson reads first, ih (count + 1) others,
      List.filter_cons]
    rfl

/-- A ladder that the grid has saved reads back from its document, but for the levels outside of the
band. -/
theorem restoreDocument_eq (reads : ∀ price, text.parse (text.render price) = .ok price)
    (config : SimpleGridConfig P) {files : Files P}
    (written : ∀ path levels, files path = some levels → ∀ level ∈ levels, level.Written)
    (ulids : Nat → String) :
    restoreDocument text config (documentsOf text files) ulids = .ok (restoreLevels config files) := by
  unfold restoreDocument restoreLevels documentsOf
  cases config.stateFile with
  | none => rfl
  | some path =>
    cases saved : files path with
    | none => simp [saved]
    | some levels =>
      simp only [saved, Option.map_some, ladderJson, Value.asArray]
      exact restoreRows_ladder reads config ulids 0 (written path levels saved)

end RoundTrip

end LongTrader.Strategy.SimpleGrid
