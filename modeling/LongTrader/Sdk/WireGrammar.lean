import LongTrader.Sdk.WireRoundTrip

/-! The protobuf wire format as a grammar, and what `Scan` of the Go SDK makes of any bytes:
which it accepts, which fields it hands on, and that no slice of it is out of bounds. -/

namespace LongTrader.Sdk

/-- Groups of seven bits, lowest first; all bytes but the last have their high bit set. -/
inductive Groups : Bytes → Nat → Prop where
  | last {b : UInt8} (ends : b.toNat < 128) : Groups [b] b.toNat
  | more {b : UInt8} (goesOn : 128 ≤ b.toNat) {rest : Bytes} {value : Nat} (tail : Groups rest value) :
      Groups (b :: rest) (b.toNat % 128 + 128 * value)

/-- A varint: at most ten bytes, of a value that fits 64 bits. -/
structure IsVarint (b : Bytes) (value : Nat) : Prop where
  groups : Groups b value
  short : b.length ≤ 10
  fits : value < 2 ^ 64

/-- The payload of a field by its wire type. -/
inductive IsPayload : Field → Bytes → Prop where
  | varint (num : Int64) {b : Bytes} {value : Nat} (varint : IsVarint b value) :
      IsPayload ⟨num, WireVarint, .ofNat value, []⟩ b
  | fixed64 (num : Int64) {b : Bytes} (size : b.length = 8) :
      IsPayload ⟨num, WireFixed64, littleEndian b, []⟩ b
  | bytes (num : Int64) {size b : Bytes} (varint : IsVarint size b.length) :
      IsPayload ⟨num, WireBytes, 0, b⟩ (size ++ b)
  | fixed32 (num : Int64) {b : Bytes} (size : b.length = 4) :
      IsPayload ⟨num, WireFixed32, littleEndian b, []⟩ b

/-- A field on the wire: its tag and its payload. -/
inductive WireField : Bytes → Field → Prop where
  | mk {f : Field} {tag payload : Bytes} (low : 1 ≤ f.Number.toInt) (high : f.Number.toInt ≤ 2 ^ 29 - 1)
      (tagged : IsVarint tag (8 * f.Number.toUInt64.toNat + f.Wire.toUInt64.toNat))
      (holds : IsPayload f payload) : WireField (tag ++ payload) f

/-- A sequence of fields. -/
inductive WellFormed : Bytes → List Field → Prop where
  | nil : WellFormed [] []
  | cons {b rest : Bytes} {f : Field} {fields : List Field} (head : WireField b f)
      (tail : WellFormed rest fields) : WellFormed (b ++ rest) (f :: fields)

theorem WellFormed.append {data more : Bytes} {fields others : List Field}
    (first : WellFormed data fields) (second : WellFormed more others) :
    WellFormed (data ++ more) (fields ++ others) := by
  induction first with
  | nil => exact second
  | cons head _ ih =>
    rw [List.append_assoc]
    exact .cons head ih

section Groups

variable {b other rest more : Bytes} {value : Nat}

theorem Groups.pos (groups : Groups b value) : 0 < b.length := by
  cases groups with
  | last => exact Nat.one_pos
  | more => exact Nat.succ_pos _

/-- What groups stand at the head of some bytes is determined. -/
theorem Groups.unique {x y : Nat} (first : Groups b x) (second : Groups other y)
    (same : b ++ rest = other ++ more) : b = other ∧ rest = more ∧ x = y := by
  induction first generalizing other y with
  | last ends =>
    cases second with
    | last => exact ⟨by simpa using (List.cons.inj same).1, (List.cons.inj same).2,
        by rw [(List.cons.inj same).1]⟩
    | more goesOn =>
      rw [(List.cons.inj same).1] at ends
      omega
  | more goesOn tail ih =>
    cases second with
    | last ends =>
      rw [(List.cons.inj same).1] at goesOn
      omega
    | more _ tail' =>
      obtain ⟨head, behind⟩ := List.cons.inj same
      obtain ⟨rfl, rfl, rfl⟩ := ih tail' behind
      exact ⟨by rw [head], rfl, by rw [head]⟩

theorem toNat_and_mask (b : UInt8) : (b &&& 0x7f).toUInt64.toNat = b.toNat % 128 := by
  have mask : (0x7f : UInt8).toNat = 2 ^ 7 - 1 := rfl
  rw [UInt8.toNat_toUInt64, UInt8.toNat_and, mask, Nat.and_two_pow_sub_one_eq_mod]

theorem lt_flag_iff (b : UInt8) : b < 0x80 ↔ b.toNat < 128 := UInt8.lt_iff_toNat_lt

/-- How many bytes the loop of `consumeVarint` takes off groups that are short enough. -/
theorem Groups.consumed (groups : Groups b value) {v : UInt64} {i : Nat} (short : i + b.length ≤ 10) :
    (consumeVarintFrom v i (b ++ rest)).2 = i + b.length := by
  induction groups generalizing v i with
  | last ends =>
    rw [List.length_singleton] at short
    rw [List.singleton_append, consumeVarintFrom, if_pos (Nat.lt_of_succ_le short)]
    dsimp only
    rw [if_pos ((lt_flag_iff _).mpr ends)]
    rfl
  | more goesOn tail ih =>
    rw [List.length_cons] at short
    rw [List.cons_append, consumeVarintFrom, if_pos (by omega)]
    dsimp only
    rw [if_neg (mt (lt_flag_iff _).mp (by omega)), ih (by omega), List.length_cons]
    omega

/-- The value that the loop gathers from groups, if it fits. -/
theorem Groups.read (groups : Groups b value) {v : UInt64} {i : Nat} (short : i + b.length ≤ 10)
    (low : v.toNat < 2 ^ (7 * i)) (fits : v.toNat + value * 2 ^ (7 * i) < 2 ^ 64) :
    (consumeVarintFrom v i (b ++ rest)).1 = .ofNat (v.toNat + value * 2 ^ (7 * i)) := by
  induction groups generalizing v i with
  | @last byte ends =>
    have payload : (byte &&& 0x7f).toUInt64.toNat = byte.toNat := by
      rw [toNat_and_mask]
      omega
    have index : i < 10 := Nat.lt_of_succ_le short
    rw [List.singleton_append, consumeVarintFrom, if_pos index]
    dsimp only
    rw [if_pos ((lt_flag_iff _).mpr ends), ← payload,
      ← toNat_or_shiftLeft low index (by rw [payload]; omega), UInt64.ofNat_toNat]
  | @more byte goesOn rest value tail ih =>
    rw [List.length_cons] at short
    have payload := toNat_and_mask byte
    have unit : 2 ^ (7 * (i + 1)) = 128 * 2 ^ (7 * i) := by
      rw [Nat.mul_succ, Nat.pow_add, Nat.mul_comm]
    have split : (byte.toNat % 128 + 128 * value) * 2 ^ (7 * i) =
        byte.toNat % 128 * 2 ^ (7 * i) + value * 2 ^ (7 * (i + 1)) := by
      rw [unit]
      ring
    rw [split] at fits ⊢
    have next : (v ||| (byte &&& 0x7f).toUInt64 <<< .ofNat (7 * i)).toNat =
        v.toNat + byte.toNat % 128 * 2 ^ (7 * i) := by
      rw [toNat_or_shiftLeft low (by omega) (by rw [payload]; omega), payload]
    have below : byte.toNat % 128 * 2 ^ (7 * i) ≤ 127 * 2 ^ (7 * i) :=
      Nat.mul_le_mul_right _ (by omega)
    rw [List.cons_append, consumeVarintFrom, if_pos (by omega)]
    dsimp only
    rw [if_neg (mt (lt_flag_iff _).mp (by omega)), ih (by omega) (by rw [next]; omega)
      (by rw [next]; omega), next, Nat.add_assoc]

/-- What the loop takes are groups, of at most ten bytes. -/
theorem groups_of_consumed {data : Bytes} {v : UInt64} {i : Nat}
    (some_ : (consumeVarintFrom v i data).2 ≠ 0) :
    ∃ b rest value, data = b ++ rest ∧ Groups b value ∧ i + b.length ≤ 10 := by
  induction data generalizing v i with
  | nil => exact absurd rfl some_
  | cons byte data ih =>
    unfold consumeVarintFrom at some_
    split at some_
    · rename_i index
      dsimp only at some_
      split at some_
      · rename_i ends
        exact ⟨[byte], data, _, rfl, .last ((lt_flag_iff _).mp ends), Nat.succ_le_of_lt index⟩
      · rename_i goesOn
        obtain ⟨b, rest, value, rfl, groups, short⟩ := ih some_
        refine ⟨byte :: b, rest, _, rfl, .more ?_ groups, ?_⟩
        · exact Nat.not_lt.mp (mt (lt_flag_iff _).mpr goesOn)
        · rw [List.length_cons]
          omega
    · exact absurd rfl some_

theorem IsVarint.consume (varint : IsVarint b value) (rest : Bytes) :
    consumeVarint (b ++ rest) = (.ofNat value, b.length) := by
  have short : 0 + b.length ≤ 10 := by
    rw [Nat.zero_add]
    exact varint.short
  have count := @Groups.consumed b rest value varint.groups 0 0 short
  have read := @Groups.read b rest value varint.groups 0 0 short (by decide)
    (by simpa using varint.fits)
  unfold consumeVarint
  refine Prod.ext ?_ ?_
  · simpa using read
  · simpa using count

end Groups

section Forward

variable {b rest payload : Bytes} {f : Field}

theorem toNat_ofNat_small {n : Nat} (small : n < 2 ^ 64) : (UInt64.ofNat n).toNat = n := by
  rw [UInt64.toNat_ofNat', Nat.mod_eq_of_lt small]

theorem tagOf_value {num wire : Int64} (small : wire.toUInt64.toNat < 8)
    (fits : 8 * num.toUInt64.toNat + wire.toUInt64.toNat < 2 ^ 64) :
    TagOf num wire (.ofNat (8 * num.toUInt64.toNat + wire.toUInt64.toNat)) := by
  constructor
  · have number : UInt64.ofNat (8 * num.toUInt64.toNat + wire.toUInt64.toNat) >>> 3 = num.toUInt64 := by
      have step : (3 : UInt64).toNat % 64 = 3 := rfl
      apply UInt64.toNat_inj.mp
      rw [UInt64.toNat_shiftRight, toNat_ofNat_small fits, step, Nat.shiftRight_eq_div_pow]
      omega
    rw [number, Int64.toInt64_toUInt64]
  · have code : UInt64.ofNat (8 * num.toUInt64.toNat + wire.toUInt64.toNat) &&& 0x7 =
        wire.toUInt64 := by
      have mask : (0x7 : UInt64).toNat = 2 ^ 3 - 1 := rfl
      apply UInt64.toNat_inj.mp
      rw [UInt64.toNat_and, mask, Nat.and_two_pow_sub_one_eq_mod, toNat_ofNat_small fits]
      omega
    rw [code, Int64.toInt64_toUInt64]

theorem IsPayload.wire_small (holds : IsPayload f payload) : f.Wire.toUInt64.toNat < 8 := by
  cases holds <;> (dsimp only; decide)

/-- A payload at the head of the data is read, and nothing behind it. -/
theorem IsPayload.read (holds : IsPayload f payload) (bound : (payload ++ rest).length < 2 ^ 63) :
    fieldPayload f.Number f.Wire (payload ++ rest) = .ok (f, rest) := by
  unfold fieldPayload
  cases holds with
  | varint num varint =>
    rw [if_pos rfl, varint.consume]
    dsimp only
    rw [if_neg varint.groups.pos.ne', List.drop_left]
  | fixed64 num size =>
    have enough : ¬ (payload ++ rest).length < 8 := by
      rw [List.length_append]
      omega
    rw [if_neg (by dsimp only; decide), if_pos rfl, if_neg enough, ← size, List.take_left,
      List.drop_left]
  | @bytes num size b varint =>
    rw [List.append_assoc, List.length_append] at bound
    have here : (UInt64.ofNat b.length).toNat = b.length := toNat_ofNat_small varint.fits
    have whole : (UInt64.ofNat (b ++ rest).length).toNat = (b ++ rest).length :=
      toNat_ofNat_small (by omega)
    have enough : ¬ UInt64.ofNat (b ++ rest).length < .ofNat b.length := by
      rw [UInt64.lt_iff_toNat_lt, here, whole, List.length_append]
      omega
    rw [if_neg (by dsimp only; decide), if_neg (by dsimp only; decide), if_pos rfl, List.append_assoc,
      varint.consume]
    dsimp only
    rw [if_neg varint.groups.pos.ne', List.drop_left, if_neg enough, here, List.take_left,
      List.drop_left]
  | fixed32 num size =>
    have enough : ¬ (payload ++ rest).length < 4 := by
      rw [List.length_append]
      omega
    rw [if_neg (by dsimp only; decide), if_neg (by dsimp only; decide), if_neg (by dsimp only; decide),
      if_pos rfl, if_neg enough, ← size, List.take_left, List.drop_left]

/-- A field at the head of the data is read, and nothing behind it. -/
theorem WireField.next (field : WireField b f) (bound : (b ++ rest).length < 2 ^ 63) :
    nextField (b ++ rest) = .ok (f, rest) := by
  cases field with
  | @mk _ tag payload low high tagged holds =>
    rw [List.append_assoc] at bound ⊢
    have tag_ := tagOf_value holds.wire_small tagged.fits
    have positive : ¬ f.Number ≤ 0 := by
      rw [Int64.le_iff_toInt_le, Int64.toInt_zero]
      omega
    rw [List.length_append] at bound
    unfold nextField
    rw [tagged.consume]
    dsimp only
    rw [if_neg tagged.groups.pos.ne', tag_.number, tag_.wire, if_neg positive, List.drop_left]
    exact holds.read (by omega)

end Forward

section Backward

/-- No varint at the head of the data has a value that needs more than 64 bits. -/
def VarintFits (data : Bytes) : Prop :=
  ∀ b rest value, data = b ++ rest → Groups b value → value < 2 ^ 64

/-- The tag at the head of the data has a field number that protobuf knows, and a varint or a
length behind it fits 64 bits. -/
def HeadFits (data : Bytes) : Prop :=
  ∀ tag rest value, data = tag ++ rest → Groups tag value →
    value / 8 ≤ 2 ^ 29 - 1 ∧ (value % 8 = 0 ∨ value % 8 = 2 → VarintFits rest)

variable {data b rest : Bytes} {f : Field}

theorem IsVarint.varintFits {value : Nat} (varint : IsVarint b value) : VarintFits (b ++ rest) := by
  intro other more value' same groups
  obtain ⟨_, _, rfl⟩ := varint.groups.unique groups same
  exact varint.fits

theorem isVarint_of_consumed (fits : VarintFits data) (some_ : (consumeVarint data).2 ≠ 0) :
    ∃ value, IsVarint (data.take (consumeVarint data).2) value ∧
      (consumeVarint data).1 = .ofNat value := by
  obtain ⟨b, rest, value, rfl, groups, short⟩ := groups_of_consumed some_
  rw [Nat.zero_add] at short
  have varint : IsVarint b value := ⟨groups, short, fits b rest value rfl groups⟩
  rw [varint.consume, List.take_left]
  exact ⟨value, varint, rfl⟩

/-- A payload that was read is one, unless a varint of it does not fit. -/
theorem isPayload_of_read {num wire : Int64} (bound : data.length < 2 ^ 63)
    (fits : wire = WireVarint ∨ wire = WireBytes → VarintFits data)
    (read : fieldPayload num wire data = .ok (f, rest)) :
    f.Number = num ∧ f.Wire = wire ∧ ∃ payload, data = payload ++ rest ∧ IsPayload f payload := by
  unfold fieldPayload at read
  split at read
  · rename_i isVarint
    dsimp only at read
    split at read
    · cases read
    rename_i some_
    obtain ⟨value, varint, same⟩ := isVarint_of_consumed (fits (.inl isVarint)) some_
    cases read
    refine ⟨rfl, rfl, _, (List.take_append_drop _ _).symm, ?_⟩
    rw [same, isVarint]
    exact .varint num varint
  split at read
  · rename_i isFixed64
    split at read
    · cases read
    rename_i enough
    cases read
    refine ⟨rfl, rfl, _, (List.take_append_drop _ _).symm, ?_⟩
    rw [isFixed64]
    exact .fixed64 num (List.length_take_of_le (Nat.not_lt.mp enough))
  split at read
  · rename_i isBytes
    dsimp only at read
    split at read
    · cases read
    rename_i some_
    split at read
    · cases read
    rename_i enough
    obtain ⟨value, varint, same⟩ := isVarint_of_consumed (fits (.inr isBytes)) some_
    cases read
    rw [same] at enough ⊢
    have here : (UInt64.ofNat value).toNat = value := toNat_ofNat_small varint.fits
    have behind : (data.drop (consumeVarint data).2).length < 2 ^ 64 := by
      rw [List.length_drop]
      omega
    rw [UInt64.lt_iff_toNat_lt, here, toNat_ofNat_small behind, Nat.not_lt] at enough
    have size := List.length_take_of_le enough
    refine ⟨rfl, rfl, data.take (consumeVarint data).2 ++
      (data.drop (consumeVarint data).2).take value, ?_, ?_⟩
    · rw [here, List.append_assoc, List.take_append_drop, List.take_append_drop]
    · rw [here, isBytes]
      exact .bytes num (size.symm ▸ varint)
  split at read
  · rename_i isFixed32
    split at read
    · cases read
    rename_i enough
    cases read
    refine ⟨rfl, rfl, _, (List.take_append_drop _ _).symm, ?_⟩
    rw [isFixed32]
    exact .fixed32 num (List.length_take_of_le (Nat.not_lt.mp enough))
  split at read
  · cases read
  · cases read

/-- The number and the wire type in the value of a tag. -/
theorem number_of_tag {value : Nat} (fits : value < 2 ^ 64) :
    (UInt64.ofNat value >>> 3).toInt64.toUInt64.toNat = value / 8 ∧
      (UInt64.ofNat value &&& 0x7).toInt64.toUInt64.toNat = value % 8 := by
  have step : (3 : UInt64).toNat % 64 = 3 := rfl
  have mask : (0x7 : UInt64).toNat = 2 ^ 3 - 1 := rfl
  rw [UInt64.toUInt64_toInt64, UInt64.toUInt64_toInt64, UInt64.toNat_shiftRight, UInt64.toNat_and,
    toNat_ofNat_small fits, step, mask, Nat.and_two_pow_sub_one_eq_mod, Nat.shiftRight_eq_div_pow]
  exact ⟨rfl, rfl⟩

theorem toInt_of_small {num : Int64} (small : num.toUInt64.toNat < 2 ^ 63) :
    num.toInt = num.toUInt64.toNat := by
  rw [toInt_eq_cond, if_pos small]

/-- A field that was read is one, unless its number or a varint of it does not fit. -/
theorem wireField_of_next (bound : data.length < 2 ^ 63) (fits : HeadFits data)
    (read : nextField data = .ok (f, rest)) : ∃ b, data = b ++ rest ∧ WireField b f := by
  by_cases some_ : (consumeVarint data).2 = 0
  · unfold nextField at read
    dsimp only at read
    rw [if_pos some_] at read
    cases read
  obtain ⟨tag, behind, value, rfl, groups, short⟩ := groups_of_consumed some_
  rw [Nat.zero_add] at short
  obtain ⟨known, inner⟩ := fits tag behind value rfl groups
  have tagged : IsVarint tag value := ⟨groups, short, by omega⟩
  obtain ⟨number, wire⟩ := number_of_tag tagged.fits
  unfold nextField at read
  rw [tagged.consume] at read
  dsimp only at read
  rw [if_neg groups.pos.ne', List.drop_left] at read
  split at read
  · cases read
  rename_i positive
  rw [Int64.le_iff_toInt_le, Int64.toInt_zero, toInt_of_small (by omega), number] at positive
  rw [List.length_append] at bound
  have payloads := isPayload_of_read (by omega) ?_ read
  · obtain ⟨sameNumber, sameWire, payload, rfl, holds⟩ := payloads
    refine ⟨tag ++ payload, (List.append_assoc ..).symm, .mk ?_ ?_ ?_ holds⟩
    · rw [sameNumber, toInt_of_small (by omega), number]
      omega
    · rw [sameNumber, toInt_of_small (by omega), number]
      omega
    · rw [sameNumber, sameWire, number, wire, Nat.div_add_mod]
      exact tagged
  · intro varint
    apply inner
    rw [← wire]
    rcases varint with isVarint | isBytes
    · rw [isVarint]
      exact .inl rfl
    · rw [isBytes]
      exact .inr rfl

/-- Whatever is behind it, a field fits. -/
theorem WireField.headFits (field : WireField b f) : HeadFits (b ++ rest) := by
  cases field with
  | @mk _ tag payload low high tagged holds =>
    intro other more value same groups
    rw [List.append_assoc] at same
    obtain ⟨rfl, rfl, rfl⟩ := tagged.groups.unique groups same
    have small := holds.wire_small
    have number : f.Number.toUInt64.toNat ≤ 2 ^ 29 - 1 := by
      have exact_ := toInt_eq_cond f.Number
      have range := f.Number.toUInt64.toNat_lt
      split at exact_
      · omega
      · omega
    refine ⟨by omega, ?_⟩
    intro inner
    cases holds with
    | varint num varint => exact varint.varintFits
    | @bytes num size b varint =>
      rw [List.append_assoc]
      exact varint.varintFits
    | fixed64 num size =>
      have code : WireFixed64.toUInt64.toNat = 1 := rfl
      dsimp only at inner
      omega
    | fixed32 num size =>
      have code : WireFixed32.toUInt64.toNat = 5 := rfl
      dsimp only at inner
      omega

end Backward

section Calls

variable {σ : Type} (fn : Field → σ → σ × Option DecodeError)

/-- The fields for which `Scan` calls an `fn` that accepts all, and the error it returns. -/
def fieldsOf (data : Bytes) : List Field × Option DecodeError :=
  scan (fun f fields => (fields ++ [f], none)) [] data

/-- Calling `fn` for each field, up to its first error. -/
def feed (state : σ) : List Field → Option DecodeError → σ × Option DecodeError
  | [], error => (state, error)
  | f :: fields, error => match fn f state with
    | (state, some refused) => (state, some refused)
    | (state, none) => feed state fields error

variable {data rest : Bytes} {f : Field}

theorem fieldsOf_after (before : List Field) (data : Bytes) :
    scan (fun f fields => (fields ++ [f], none)) before data =
      (before ++ (fieldsOf data).1, (fieldsOf data).2) := by
  induction size : data.length using Nat.strongRecOn generalizing data before with
  | ind bound ih =>
    unfold fieldsOf
    by_cases empty : data = []
    · subst empty
      rw [scan_nil, scan_nil, List.append_nil]
    · cases read : nextField data with
      | error error => rw [scan_of_error _ empty read, scan_of_error _ empty read, List.append_nil]
      | ok given =>
        obtain ⟨f, rest⟩ := given
        have shorter : rest.length < bound := size ▸ nextField_shorter read
        rw [scan_of_ok _ read, scan_of_ok _ read]
        dsimp only
        rw [ih _ shorter (before ++ [f]) rest rfl, ih _ shorter ([] ++ [f]) rest rfl]
        simp

theorem fieldsOf_nil : fieldsOf [] = ([], none) := scan_nil []

theorem fieldsOf_ok (read : nextField data = .ok (f, rest)) :
    fieldsOf data = (f :: (fieldsOf rest).1, (fieldsOf rest).2) := by
  conv_lhs => rw [fieldsOf, scan_of_ok _ read]
  exact fieldsOf_after [f] rest

theorem fieldsOf_error {error : DecodeError} (more : data ≠ []) (read : nextField data = .error error) :
    fieldsOf data = ([], some error) := scan_of_error [] more read

/-- Whatever `fn` does, it is called for these fields in this order, up to its first error. -/
theorem scan_feed (state : σ) (data : Bytes) :
    scan fn state data = feed fn state (fieldsOf data).1 (fieldsOf data).2 := by
  induction size : data.length using Nat.strongRecOn generalizing data state with
  | ind bound ih =>
    by_cases empty : data = []
    · subst empty
      rw [scan_nil, fieldsOf_nil, feed]
    · cases read : nextField data with
      | error error => rw [scan_of_error _ empty read, fieldsOf_error empty read, feed]
      | ok given =>
        obtain ⟨f, rest⟩ := given
        have shorter : rest.length < bound := size ▸ nextField_shorter read
        rw [scan_of_ok _ read, fieldsOf_ok read]
        dsimp only
        rw [feed]
        cases called : fn f state with
        | mk after refused =>
          cases refused with
          | some refused => rfl
          | none => exact ih _ shorter after rest rfl

end Calls

section Bounds

/-- `b[n:]`, `none` where Go panics. -/
def sliceFrom (b : Bytes) (n : Int) : Option Bytes :=
  if 0 ≤ n ∧ n ≤ b.length then some (b.drop n.toNat) else none

/-- `b[:n]`. -/
def sliceTo (b : Bytes) (n : Int) : Option Bytes :=
  if 0 ≤ n ∧ n ≤ b.length then some (b.take n.toNat) else none

/-- `binary.LittleEndian.Uint64` and `Uint32`, which read the first bytes of a slice. -/
def littleEndianAt (width : Nat) (b : Bytes) : Option UInt64 := (sliceTo b width).map littleEndian

/-- The loop of `consumeVarint` with its index expressions. -/
def consumeVarintLoop (b : Bytes) (v : UInt64) (i : Nat) : Option (UInt64 × Nat) :=
  if i < b.length ∧ i < 10 then do
    let byte ← b[i]?
    let v := v ||| (byte &&& 0x7f).toUInt64 <<< .ofNat (7 * i)
    if byte < 0x80 then some (v, i + 1) else consumeVarintLoop b v (i + 1)
  else some (0, 0)
termination_by b.length - i

/-- The switch of `Scan` with its slice expressions. -/
def payloadSlices (num wire : Int64) (data : Bytes) : Option (Except DecodeError (Field × Bytes)) :=
  if wire = WireVarint then do
    let (v, n) ← consumeVarintLoop data 0 0
    if n = 0 then return .error ⟨s!"field {num}: truncated varint"⟩
    let data ← sliceFrom data n
    return .ok (⟨num, wire, v, []⟩, data)
  else if wire = WireFixed64 then
    if data.length < 8 then return .error ⟨s!"field {num}: truncated fixed64"⟩
    else do
      let v ← littleEndianAt 8 data
      let data ← sliceFrom data 8
      return .ok (⟨num, wire, v, []⟩, data)
  else if wire = WireBytes then do
    let (length, n) ← consumeVarintLoop data 0 0
    if n = 0 then return .error ⟨s!"field {num}: truncated length prefix"⟩
    let data ← sliceFrom data n
    if .ofNat data.length < length then
      return .error ⟨s!"field {num}: truncated payload, want {length} have {data.length}"⟩
    let payload ← sliceTo data length.toInt64.toInt
    let data ← sliceFrom data length.toInt64.toInt
    return .ok (⟨num, wire, 0, payload⟩, data)
  else if wire = WireFixed32 then
    if data.length < 4 then return .error ⟨s!"field {num}: truncated fixed32"⟩
    else do
      let v ← littleEndianAt 4 data
      let data ← sliceFrom data 4
      return .ok (⟨num, wire, v, []⟩, data)
  else if wire = 3 ∨ wire = 4 then return .error ⟨s!"field {num}: groups are not supported"⟩
  else return .error ⟨s!"field {num}: unknown wire type {wire}"⟩

/-- One round of `Scan` with its slice expressions. -/
def fieldSlices (data : Bytes) : Option (Except DecodeError (Field × Bytes)) := do
  let (tag, n) ← consumeVarintLoop data 0 0
  if n = 0 then return .error ⟨"truncated field tag"⟩
  let data ← sliceFrom data n
  let num := (tag >>> 3).toInt64
  let wire := (tag &&& 0x7).toInt64
  if num ≤ 0 then return .error ⟨s!"invalid field number {num}"⟩
  payloadSlices num wire data

theorem sliceFrom_le {b : Bytes} {n : Nat} (inside : n ≤ b.length) : sliceFrom b n = some (b.drop n) := by
  rw [sliceFrom, if_pos ⟨Int.natCast_nonneg n, Int.ofNat_le.mpr inside⟩, Int.toNat_natCast]

theorem sliceTo_le {b : Bytes} {n : Nat} (inside : n ≤ b.length) : sliceTo b n = some (b.take n) := by
  rw [sliceTo, if_pos ⟨Int.natCast_nonneg n, Int.ofNat_le.mpr inside⟩, Int.toNat_natCast]

theorem littleEndianAt_le {b : Bytes} {width : Nat} (inside : width ≤ b.length) :
    littleEndianAt width b = some (littleEndian (b.take width)) := by
  rw [littleEndianAt, sliceTo_le inside]
  rfl

/-- No index of the loop of `consumeVarint` is out of range. -/
theorem consumeVarintLoop_eq (b : Bytes) (v : UInt64) (i : Nat) :
    consumeVarintLoop b v i = some (consumeVarintFrom v i (b.drop i)) := by
  induction left : b.length - i generalizing v i with
  | zero =>
    have done : b.drop i = [] := List.drop_eq_nil_of_le (by omega)
    rw [consumeVarintLoop, if_neg (by omega), done]
    rfl
  | succ left ih =>
    have inside : i < b.length := by omega
    have shape := List.drop_eq_getElem_cons inside
    rw [consumeVarintLoop, shape, consumeVarintFrom]
    by_cases index : i < 10
    · rw [if_pos ⟨inside, index⟩, if_pos index, List.getElem?_eq_getElem inside]
      dsimp only [Option.bind_eq_bind, Option.bind_some]
      split
      · rfl
      · exact ih _ (i + 1) (by omega)
    · rw [if_neg fun both => index both.2, if_neg index]

theorem consumeVarint_le (b : Bytes) : (consumeVarint b).2 ≤ b.length := by
  have bounds := consumeVarintFrom_bounds 0 0 b
  unfold consumeVarint
  omega

theorem payloadSlices_eq (num wire : Int64) {data : Bytes} (bound : data.length < 2 ^ 63) :
    payloadSlices num wire data = some (fieldPayload num wire data) := by
  have varint : consumeVarintLoop data 0 0 = some (consumeVarint data) := consumeVarintLoop_eq data 0 0
  have from_ := sliceFrom_le (consumeVarint_le data)
  have size : (data.drop (consumeVarint data).2).length < 2 ^ 63 := by
    rw [List.length_drop]
    omega
  unfold payloadSlices fieldPayload
  rw [varint]
  dsimp only [Option.bind_eq_bind, Option.bind_some]
  rw [from_]
  by_cases isVarint : wire = WireVarint
  · rw [if_pos isVarint, if_pos isVarint]
    split
    · rfl
    · rfl
  by_cases isFixed64 : wire = WireFixed64
  · rw [if_neg isVarint, if_neg isVarint, if_pos isFixed64, if_pos isFixed64]
    split
    · rfl
    · rename_i enough
      have behind : sliceFrom data 8 = some (data.drop 8) := sliceFrom_le (Nat.not_lt.mp enough)
      rw [littleEndianAt_le (Nat.not_lt.mp enough), behind]
      rfl
  by_cases isBytes : wire = WireBytes
  · rw [if_neg isVarint, if_neg isVarint, if_neg isFixed64, if_neg isFixed64, if_pos isBytes,
      if_pos isBytes]
    by_cases none_read : (consumeVarint data).2 = 0
    · rw [if_pos none_read, if_pos none_read]
      rfl
    rw [if_neg none_read, if_neg none_read]
    dsimp only [Option.bind_eq_bind, Option.bind_some]
    split
    · rfl
    · rename_i enough
      rw [UInt64.lt_iff_toNat_lt, toNat_ofNat_small (by omega), Nat.not_lt] at enough
      have whole : (consumeVarint data).1.toInt64.toInt = ((consumeVarint data).1.toNat : Int) := by
        rw [toInt_of_small (by rw [UInt64.toUInt64_toInt64]; omega), UInt64.toUInt64_toInt64]
      rw [whole, sliceTo_le enough, sliceFrom_le enough]
      rfl
  by_cases isFixed32 : wire = WireFixed32
  · rw [if_neg isVarint, if_neg isVarint, if_neg isFixed64, if_neg isFixed64, if_neg isBytes,
      if_neg isBytes, if_pos isFixed32, if_pos isFixed32]
    split
    · rfl
    · rename_i enough
      have behind : sliceFrom data 4 = some (data.drop 4) := sliceFrom_le (Nat.not_lt.mp enough)
      rw [littleEndianAt_le (Nat.not_lt.mp enough), behind]
      rfl
  · rw [if_neg isVarint, if_neg isVarint, if_neg isFixed64, if_neg isFixed64, if_neg isBytes,
      if_neg isBytes, if_neg isFixed32, if_neg isFixed32]
    split
    · rfl
    · rfl

/-- No slice of a round of `Scan` is out of bounds. -/
theorem fieldSlices_eq {data : Bytes} (bound : data.length < 2 ^ 63) :
    fieldSlices data = some (nextField data) := by
  have varint : consumeVarintLoop data 0 0 = some (consumeVarint data) := consumeVarintLoop_eq data 0 0
  have behind : (data.drop (consumeVarint data).2).length < 2 ^ 63 := by
    rw [List.length_drop]
    omega
  unfold fieldSlices nextField
  rw [varint]
  dsimp only [Option.bind_eq_bind, Option.bind_some]
  rw [sliceFrom_le (consumeVarint_le data)]
  dsimp only [Option.bind_eq_bind, Option.bind_some]
  rw [payloadSlices_eq _ _ behind]
  split
  · rfl
  split
  · rfl
  · rfl

end Bounds

section Exact

/-- The data that is left at the start of a round of `Scan`. -/
inductive Reaches : Bytes → Bytes → Prop where
  | refl (data : Bytes) : Reaches data data
  | next {data rest left : Bytes} {f : Field} (read : nextField data = .ok (f, rest))
      (later : Reaches rest left) : Reaches data left

/-- A byte slice of Go; its length is an `int`. -/
def Slice : Type := { data : Bytes // data.length < 2 ^ 63 }

/-- An exact parser of the wire format on some bytes. -/
structure ScansExactly (data : Bytes) : Prop where
  /-- No round slices out of bounds. -/
  inBounds : ∀ left, Reaches data left → fieldSlices left = some (nextField left)
  /-- It succeeds just on sequences of fields. -/
  accepts : (fieldsOf data).2 = none ↔ ∃ fields, WellFormed data fields
  /-- Any `fn` is called for fields of the result only, in order. -/
  feeds : ∀ (σ : Type) (fn : Field → σ → σ × Option DecodeError) (state : σ),
    scan fn state data = feed fn state (fieldsOf data).1 (fieldsOf data).2
  /-- These are the fields before the end or before the first bytes that are no field. -/
  called : ∃ front rest, data = front ++ rest ∧ WellFormed front (fieldsOf data).1 ∧
    ((fieldsOf data).2 = none → rest = []) ∧
    ((fieldsOf data).2 ≠ none → rest ≠ [] ∧ ∀ b more f, rest = b ++ more → ¬ WireField b f)

/-- Every field that `Scan` reads has a number that protobuf knows, and varints that fit. -/
def FieldsFit (data : Bytes) : Prop :=
  ∀ left, Reaches data left → ∀ f rest, nextField left = .ok (f, rest) → HeadFits left

variable {data : Bytes}

theorem Reaches.length_le {left : Bytes} (reaches : Reaches data left) : left.length ≤ data.length := by
  induction reaches with
  | refl => exact Nat.le_refl _
  | next read _ ih => exact Nat.le_trans ih (Nat.le_of_lt (nextField_shorter read))

/-- A sequence of fields is scanned to its fields. -/
theorem fieldsOf_wellFormed {fields : List Field} (formed : WellFormed data fields)
    (bound : data.length < 2 ^ 63) : fieldsOf data = (fields, none) := by
  induction formed with
  | nil => exact fieldsOf_nil
  | cons head tail ih =>
    have behind := ih (by rw [List.length_append] at bound; omega)
    rw [fieldsOf_ok (head.next bound), behind]

/-- Where the fields that are read fit, the scan stops at the end or at bytes that are no field. -/
theorem called_of_fit (bound : data.length < 2 ^ 63) (fit : FieldsFit data) :
    ∃ front rest, data = front ++ rest ∧ WellFormed front (fieldsOf data).1 ∧
      ((fieldsOf data).2 = none → rest = []) ∧
      ((fieldsOf data).2 ≠ none → rest ≠ [] ∧ ∀ b more f, rest = b ++ more → ¬ WireField b f) := by
  induction size : data.length using Nat.strongRecOn generalizing data with
  | ind length ih =>
    by_cases empty : data = []
    · subst empty
      rw [fieldsOf_nil]
      exact ⟨[], [], rfl, .nil, fun _ => rfl, fun failed => absurd rfl failed⟩
    · cases read : nextField data with
      | error error =>
        rw [fieldsOf_error empty read]
        refine ⟨[], data, rfl, .nil, nofun, fun _ => ⟨empty, ?_⟩⟩
        rintro b more f rfl field
        rw [field.next bound] at read
        cases read
      | ok given =>
        obtain ⟨f, rest⟩ := given
        have shorter := nextField_shorter read
        obtain ⟨b, rfl, field⟩ := wireField_of_next bound (fit _ (.refl _) f rest read) read
        obtain ⟨front, left, rfl, formed, ends, stops⟩ := ih rest.length (size ▸ shorter)
          (Nat.lt_trans shorter bound) (fun left reaches => fit left (.next read reaches)) rfl
        rw [fieldsOf_ok read]
        exact ⟨b ++ front, left, (List.append_assoc ..).symm, .cons field formed, ends, stops⟩

/-- The fields of a well-formed front fit, wherever the scan stands. -/
theorem fit_of_called (bound : data.length < 2 ^ 63) {front rest : Bytes} (same : data = front ++ rest)
    (formed : WellFormed front (fieldsOf data).1) : FieldsFit data := by
  intro left reaches f behind read
  induction reaches generalizing front with
  | refl data =>
    rw [fieldsOf_ok read] at formed
    cases formed with
    | cons head tail =>
      rw [same, List.append_assoc]
      exact head.headFits
  | next first later ih =>
    rw [fieldsOf_ok first] at formed
    cases formed with
    | cons head tail =>
      rw [List.append_assoc] at same
      subst same
      rw [head.next bound] at first
      obtain ⟨_, rfl⟩ := Prod.mk.inj (Except.ok.inj first)
      exact ih (by rw [List.length_append] at bound; omega) rfl tail read

/-- `Scan` is an exact parser of a byte slice just if the fields that it reads fit. -/
theorem scan_exact_iff (data : Slice) : ScansExactly data.1 ↔ FieldsFit data.1 := by
  obtain ⟨data, bound⟩ := data
  constructor
  · intro exact_
    obtain ⟨front, rest, same, formed, _⟩ := exact_.called
    exact fit_of_called bound same formed
  · intro fit
    have called := called_of_fit bound fit
    refine ⟨?_, ?_, fun _ fn state => scan_feed fn state data, called⟩
    · intro left reaches
      exact fieldSlices_eq (Nat.lt_of_le_of_lt reaches.length_le bound)
    · constructor
      · intro done
        obtain ⟨front, rest, same, formed, ends, _⟩ := called
        rw [ends done, List.append_nil] at same
        rw [← same] at formed
        exact ⟨_, formed⟩
      · rintro ⟨fields, formed⟩
        rw [fieldsOf_wellFormed formed bound]

/-- A varint field whose ten bytes spell 2 ^ 64. -/
def overlong : Bytes := [8, 128, 128, 128, 128, 128, 128, 128, 128, 128, 2]

/-- It is taken for a field of value zero. -/
theorem scan_truncates_varint :
    fieldsOf overlong = ([⟨1, WireVarint, 0, []⟩], none) ∧ ∀ fields, ¬ WellFormed overlong fields := by
  refine ⟨by decide +kernel, ?_⟩
  intro fields formed
  have tag : Groups [8] 8 := @Groups.last 8 (by decide)
  have value : Groups [128, 128, 128, 128, 128, 128, 128, 128, 128, 2] (2 ^ 64) := by
    have ends : Groups [2] 2 := @Groups.last 2 (by decide)
    have byte : 128 ≤ (128 : UInt8).toNat := by decide
    exact .more byte <| .more byte <| .more byte <| .more byte <| .more byte <| .more byte <|
      .more byte <| .more byte <| .more byte ends
  have fits : HeadFits overlong := by
    generalize same : overlong = data at formed
    cases formed with
    | nil => cases same
    | cons head tail => exact head.headFits
  have inner := (fits [8] _ 8 rfl tag).2 (.inl rfl)
  exact absurd (inner _ [] (2 ^ 64) rfl value) (by decide)

end Exact

end LongTrader.Sdk
