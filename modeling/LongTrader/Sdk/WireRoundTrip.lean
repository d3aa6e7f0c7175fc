import LongTrader.Sdk.Wire

/-! What is written by an encoder of the Go SDK is read back by its scan. -/

namespace LongTrader.Sdk

/-- The field of a number that is not omitted. -/
def scalarField (num wire : Int64) (v : UInt64) : Option Field :=
  if v = 0 then none else some ⟨num, wire, v, []⟩

/-- The field of a length-delimited payload that is not omitted. -/
def bytesField (num : Int64) (v : Bytes) : Option Field :=
  if v = [] then none else some ⟨num, WireBytes, 0, v⟩

/-- The field that a write leaves on the wire, if it is not omitted. -/
def Write.field : Write → Option Field
  | .varint num v => scalarField num WireVarint v
  | .int64 num v => scalarField num WireVarint v.toUInt64
  | .int32 num v => scalarField num WireVarint v.toInt64.toUInt64
  | .uint64 num v => scalarField num WireVarint v
  | .uint32 num v => scalarField num WireVarint v.toUInt64
  | .bool num v => scalarField num WireVarint v.toUInt64
  | .string num v => Sdk.bytesField num v
  | .optString num v => v.map fun v => ⟨num, WireBytes, 0, v⟩
  | .bytesField num v => Sdk.bytesField num v
  | .fixed64 num v => scalarField num WireFixed64 v
  | .fixed32 num v => scalarField num WireFixed32 v.toUInt64
  | .nilMessage _ => none
  | .message num body => some ⟨num, WireBytes, 0, encodeAll body⟩

/-- The accessor for what was written yields it. -/
def Write.ReadsBack (f : Field) : Write → Prop
  | .varint _ v => f.AsUint64 = v
  | .int64 _ v => f.AsInt64 = v
  | .int32 _ v => f.AsInt32 = v
  | .uint64 _ v => f.AsUint64 = v
  | .uint32 _ v => f.AsUint32 = v
  | .bool _ v => f.AsBool = v
  | .string _ v => f.AsString = v
  | .optString _ v => some f.AsString = v
  | .bytesField _ v => f.Data = v
  | .fixed64 _ v => f.AsUint64 = v
  | .fixed32 _ v => f.AsUint32 = v
  | .nilMessage _ => False
  | .message _ body => f.Data = encodeAll body

section Fields

variable {num : Int64} {f : Field}

theorem scalarField_eq_some {wire : Int64} {v : UInt64} :
    scalarField num wire v = some f ↔ v ≠ 0 ∧ f = ⟨num, wire, v, []⟩ := by
  unfold scalarField
  split <;> simp_all [eq_comm]

theorem bytesField_eq_some {v : Bytes} :
    bytesField num v = some f ↔ v ≠ [] ∧ f = ⟨num, WireBytes, 0, v⟩ := by
  unfold bytesField
  split <;> simp_all [eq_comm]

theorem toInt32_extended (v : Int32) : v.toInt64.toUInt64.toUInt32.toInt32 = v := by
  apply Int32.toBitVec_inj.mp
  rw [UInt32.toBitVec_toInt32, UInt64.toBitVec_toUInt32, Int64.toBitVec_toUInt64,
    Int32.toBitVec_toInt64]
  ext i inside
  rw [BitVec.getElem_setWidth, BitVec.getLsbD_signExtend]
  simp [inside]
  omega

theorem Write.readsBack {write : Write} (present : write.field = some f) : write.ReadsBack f := by
  cases write with
  | varint num v | uint64 num v | fixed64 num v =>
    obtain ⟨-, rfl⟩ := scalarField_eq_some.mp present
    rfl
  | int64 num v =>
    obtain ⟨-, rfl⟩ := scalarField_eq_some.mp present
    exact Int64.toInt64_toUInt64 v
  | int32 num v =>
    obtain ⟨-, rfl⟩ := scalarField_eq_some.mp present
    exact toInt32_extended v
  | uint32 num v | fixed32 num v =>
    obtain ⟨-, rfl⟩ := scalarField_eq_some.mp present
    exact UInt32.toUInt32_toUInt64 v
  | bool num v =>
    obtain ⟨nonzero, rfl⟩ := scalarField_eq_some.mp present
    cases v with
    | true => rfl
    | false => exact absurd rfl nonzero
  | string num v | bytesField num v =>
    obtain ⟨-, rfl⟩ := bytesField_eq_some.mp present
    rfl
  | optString num v =>
    obtain ⟨v, rfl, rfl⟩ := Option.map_eq_some_iff.mp present
    rfl
  | nilMessage num => cases present
  | message num body =>
    obtain rfl := Option.some.inj present
    rfl

end Fields

theorem toInt_eq_cond (num : Int64) :
    num.toInt = if num.toUInt64.toNat < 2 ^ 63 then (num.toUInt64.toNat : Int)
      else num.toUInt64.toNat - 2 ^ 64 := by
  have bits := BitVec.toInt_eq_toNat_cond num.toBitVec
  rw [Int64.toInt_toBitVec, Int64.toNat_toBitVec] at bits
  rw [bits]
  split <;> split <;> first | rfl | omega

/-- The field numbers that leave room for the wire type and that a scan accepts. -/
def Numbered (num : Int64) : Prop := 0 < num.toInt ∧ num.toInt < 2 ^ 61

theorem numbered_iff (num : Int64) :
    Numbered num ↔ 0 < num.toUInt64.toNat ∧ num.toUInt64.toNat < 2 ^ 61 := by
  have bound := num.toUInt64.toNat_lt
  rw [Numbered, toInt_eq_cond]
  split <;> omega

/-- The number and the wire type that a tag carries. -/
structure TagOf (num wire : Int64) (tag : UInt64) : Prop where
  number : (tag >>> 3).toInt64 = num
  wire : (tag &&& 0x7).toInt64 = wire

theorem tagOf_put {num : Int64} (numbered : Numbered num) {wire : Int64} (small : wire.toUInt64.toNat < 8) :
    TagOf num wire (num.toUInt64 <<< 3 ||| wire.toUInt64) := by
  have range := (numbered_iff num).mp numbered
  have shifted : (num.toUInt64 <<< 3 ||| wire.toUInt64).toNat =
      num.toUInt64.toNat * 8 + wire.toUInt64.toNat := by
    have step : (3 : UInt64).toNat % 64 = 3 := rfl
    rw [UInt64.toNat_or, UInt64.toNat_shiftLeft, step, Nat.shiftLeft_eq, Nat.mod_eq_of_lt (by omega),
      Nat.mul_comm, ← Nat.two_pow_add_eq_or_of_lt small]
  constructor
  · have number : (num.toUInt64 <<< 3 ||| wire.toUInt64) >>> 3 = num.toUInt64 := by
      have step : (3 : UInt64).toNat % 64 = 3 := rfl
      apply UInt64.toNat_inj.mp
      rw [UInt64.toNat_shiftRight, shifted, step, Nat.shiftRight_eq_div_pow]
      omega
    rw [number, Int64.toInt64_toUInt64]
  · have code : (num.toUInt64 <<< 3 ||| wire.toUInt64) &&& 0x7 = wire.toUInt64 := by
      have mask : (0x7 : UInt64).toNat = 2 ^ 3 - 1 := rfl
      apply UInt64.toNat_inj.mp
      rw [UInt64.toNat_and, mask, Nat.and_two_pow_sub_one_eq_mod, shifted]
      omega
    rw [code, Int64.toInt64_toUInt64]

section Next

variable {num : Int64} (numbered : Numbered num) (rest : Bytes)

include numbered

theorem nextField_putTag {wire : Int64} (small : wire.toUInt64.toNat < 8) :
    nextField (putTag num wire ++ rest) = fieldPayload num wire rest := by
  have tag := tagOf_put numbered small
  have positive : ¬ num ≤ 0 := by
    rw [Int64.le_iff_toInt_le, Int64.toInt_zero]
    have := numbered.1
    omega
  unfold nextField putTag
  rw [consumeVarint_putVarint]
  dsimp only
  rw [if_neg (putVarint_pos _).ne', tag.number, tag.wire, if_neg positive, List.drop_left]

theorem nextField_varint (v : UInt64) :
    nextField (putTag num WireVarint ++ putVarint v ++ rest) = .ok (⟨num, WireVarint, v, []⟩, rest) := by
  rw [List.append_assoc, nextField_putTag numbered _ (by decide)]
  unfold fieldPayload
  rw [if_pos rfl, consumeVarint_putVarint]
  dsimp only
  rw [if_neg (putVarint_pos _).ne', List.drop_left]

theorem nextField_lengthDelimited {b : Bytes} (short : (b ++ rest).length < 2 ^ 64) :
    nextField (putLengthDelimited num b ++ rest) = .ok (⟨num, WireBytes, 0, b⟩, rest) := by
  rw [List.length_append] at short
  have size : (UInt64.ofNat b.length).toNat = b.length := by
    rw [UInt64.toNat_ofNat']
    omega
  have fits : ¬ UInt64.ofNat (b ++ rest).length < .ofNat b.length := by
    rw [UInt64.lt_iff_toNat_lt, size, UInt64.toNat_ofNat', List.length_append]
    omega
  unfold putLengthDelimited
  rw [List.append_assoc, List.append_assoc, nextField_putTag numbered _ (by decide)]
  unfold fieldPayload
  rw [if_neg (by decide), if_neg (by decide), if_pos rfl, consumeVarint_putVarint]
  dsimp only
  rw [if_neg (putVarint_pos _).ne', List.drop_left, if_neg fits, size, List.take_left, List.drop_left]

end Next

theorem appendLittleEndian_succ (width v : Nat) :
    appendLittleEndian (width + 1) v = UInt8.ofNat v :: appendLittleEndian width (v / 256) := by
  simp only [appendLittleEndian, List.range_succ_eq_map, List.map_cons, List.map_map, pow_zero,
    Nat.div_one, List.cons.injEq, true_and]
  apply List.map_congr_left
  intro i _
  rw [Function.comp_apply, Nat.div_div_eq_div_mul, ← pow_succ']

theorem ofDigits_appendLittleEndian (width v : Nat) :
    Nat.ofDigits 256 ((appendLittleEndian width v).map UInt8.toNat) = v % 256 ^ width := by
  induction width generalizing v with
  | zero => simp [appendLittleEndian, Nat.mod_one]
  | succ width ih =>
    have split : v % 256 ^ (width + 1) = v % 256 + 256 * (v / 256 % 256 ^ width) := by
      rw [pow_succ', Nat.mod_mul]
    rw [appendLittleEndian_succ, List.map_cons, Nat.ofDigits_cons, ih, UInt8.toNat_ofNat', split]

@[simp] theorem length_appendLittleEndian (width v : Nat) :
    (appendLittleEndian width v).length = width := by
  simp [appendLittleEndian]

theorem littleEndian_append {width : Nat} {v : UInt64} (fits : v.toNat < 256 ^ width) :
    littleEndian (appendLittleEndian width v.toNat) = v := by
  rw [littleEndian, ofDigits_appendLittleEndian, Nat.mod_eq_of_lt fits, UInt64.ofNat_toNat]

section Fixed

variable {num : Int64} (numbered : Numbered num) (rest : Bytes)

include numbered

theorem nextField_fixed64 (v : UInt64) :
    nextField (putTag num WireFixed64 ++ appendLittleEndian 8 v.toNat ++ rest) =
      .ok (⟨num, WireFixed64, v, []⟩, rest) := by
  have size := length_appendLittleEndian 8 v.toNat
  rw [List.append_assoc, nextField_putTag numbered _ (by decide)]
  unfold fieldPayload
  rw [if_neg (by decide), if_pos rfl, if_neg (by rw [List.length_append, size]; omega),
    List.take_left' size, List.drop_left' size, littleEndian_append v.toNat_lt]

theorem nextField_fixed32 (v : UInt32) :
    nextField (putTag num WireFixed32 ++ appendLittleEndian 4 v.toNat ++ rest) =
      .ok (⟨num, WireFixed32, v.toUInt64, []⟩, rest) := by
  have size := length_appendLittleEndian 4 v.toNat
  have value : littleEndian (appendLittleEndian 4 v.toNat) = v.toUInt64 := by
    rw [← UInt32.toNat_toUInt64]
    exact littleEndian_append (by rw [UInt32.toNat_toUInt64]; exact v.toNat_lt)
  rw [List.append_assoc, nextField_putTag numbered _ (by decide)]
  unfold fieldPayload
  rw [if_neg (by decide), if_neg (by decide), if_neg (by decide), if_pos rfl,
    if_neg (by rw [List.length_append, size]; omega), List.take_left' size, List.drop_left' size, value]

end Fixed

/-- Bytes that are a field on the wire, whatever follows them, or nothing. -/
def Encodes (bytes : Bytes) : Option Field → Prop
  | none => bytes = []
  | some f => Numbered f.Number → ∀ rest, (bytes ++ rest).length < 2 ^ 63 →
    nextField (bytes ++ rest) = .ok (f, rest)

theorem encodes_varint (num : Int64) (v : UInt64) :
    Encodes (encodeVarint num v) (scalarField num WireVarint v) := by
  unfold encodeVarint scalarField
  split
  · rfl
  · exact fun numbered rest _ => nextField_varint numbered rest v

theorem encodes_bool (num : Int64) (v : Bool) :
    Encodes (encodeBool num v) (scalarField num WireVarint v.toUInt64) := by
  cases v with
  | false => rfl
  | true => exact fun numbered rest _ => nextField_varint numbered rest 1

theorem encodes_lengthDelimited (num : Int64) (v : Bytes) :
    Encodes (putLengthDelimited num v) (some ⟨num, WireBytes, 0, v⟩) := by
  intro numbered rest short
  refine nextField_lengthDelimited numbered rest ?_
  simp only [putLengthDelimited, List.length_append] at short ⊢
  omega

theorem encodes_string (num : Int64) (v : Bytes) :
    Encodes (encodeString num v) (bytesField num v) := by
  unfold encodeString bytesField
  split
  · rfl
  · exact encodes_lengthDelimited num v

theorem encodes_bytesField (num : Int64) (v : Bytes) :
    Encodes (encodeBytesField num v) (bytesField num v) := by
  simpa only [encodeBytesField, encodeString, List.length_eq_zero_iff] using encodes_string num v

theorem encodes_optString (num : Int64) (v : Option Bytes) :
    Encodes (encodeOptString num v) (v.map fun v => ⟨num, WireBytes, 0, v⟩) := by
  cases v with
  | none => rfl
  | some v => exact encodes_lengthDelimited num v

theorem encodes_fixed64 (num : Int64) (v : UInt64) :
    Encodes (encodeFixed64 num v) (scalarField num WireFixed64 v) := by
  unfold encodeFixed64 scalarField
  split
  · rfl
  · exact fun numbered rest _ => nextField_fixed64 numbered rest v

theorem encodes_fixed32 (num : Int64) (v : UInt32) :
    Encodes (encodeFixed32 num v) (scalarField num WireFixed32 v.toUInt64) := by
  have zero : v.toUInt64 = 0 ↔ v = 0 := by
    rw [← UInt64.toNat_inj, UInt32.toNat_toUInt64, ← UInt32.toNat_inj]
    rfl
  unfold encodeFixed32 scalarField
  simp only [zero]
  split
  · rfl
  · exact fun numbered rest _ => nextField_fixed32 numbered rest v

theorem Write.encodes (write : Write) : Encodes write.encode write.field := by
  cases write with
  | varint num v => exact encodes_varint num v
  | int64 num v => exact encodes_varint num v.toUInt64
  | int32 num v => exact encodes_varint num v.toInt64.toUInt64
  | uint64 num v => exact encodes_varint num v
  | uint32 num v => exact encodes_varint num v.toUInt64
  | bool num v => exact encodes_bool num v
  | string num v => exact encodes_string num v
  | optString num v => exact encodes_optString num v
  | bytesField num v => exact encodes_bytesField num v
  | fixed64 num v => exact encodes_fixed64 num v
  | fixed32 num v => exact encodes_fixed32 num v
  | nilMessage num => rfl
  | message num body => exact encodes_lengthDelimited num (encodeAll body)

/-- The callback that keeps every field. -/
def collect (field : Field) (fields : List Field) : List Field × Option DecodeError :=
  (fields ++ [field], none)

theorem scan_encodeAll {writes : List Write} (fields : List Field)
    (numbered : ∀ f ∈ writes.filterMap Write.field, Numbered f.Number)
    (short : (encodeAll writes).length < 2 ^ 63) :
    scan collect fields (encodeAll writes) = (fields ++ writes.filterMap Write.field, none) := by
  induction writes generalizing fields with
  | nil =>
    rw [List.filterMap_nil, List.append_nil]
    exact scan_nil fields
  | cons write rest ih =>
    have encodes := write.encodes
    have body : encodeAll (write :: rest) = write.encode ++ encodeAll rest := rfl
    rw [body] at short ⊢
    have shorter : (encodeAll rest).length < 2 ^ 63 := by
      rw [List.length_append] at short
      omega
    cases present : write.field with
    | none =>
      rw [List.filterMap_cons_none present] at numbered ⊢
      rw [present] at encodes
      rw [show write.encode = [] from encodes]
      exact ih fields numbered shorter
    | some f =>
      rw [List.filterMap_cons_some present] at numbered ⊢
      rw [present] at encodes
      have read := encodes (numbered f (List.mem_cons_self ..)) (encodeAll rest) short
      rw [scan_of_ok fields read]
      dsimp only [collect]
      rw [ih _ (fun other member => numbered other (List.mem_cons_of_mem _ member)) shorter,
        List.append_assoc, List.singleton_append]

theorem fieldPayload_number {num wire : Int64} {data rest : Bytes} {field : Field}
    (read : fieldPayload num wire data = .ok (field, rest)) : field.Number = num := by
  unfold fieldPayload at read
  dsimp only at read
  repeat' split at read
  all_goals cases read
  all_goals rfl

/-- Only numbers that leave room for the wire type are ever read. -/
theorem nextField_numbered {data rest : Bytes} {field : Field}
    (read : nextField data = .ok (field, rest)) : Numbered field.Number := by
  unfold nextField at read
  dsimp only at read
  split at read
  · cases read
  split at read
  · cases read
  rename_i positive
  rw [fieldPayload_number read]
  have low := (consumeVarint data).1.toNat_lt
  have step : (3 : UInt64).toNat % 64 = 3 := rfl
  have high : ((consumeVarint data).1 >>> 3).toNat < 2 ^ 61 := by
    rw [UInt64.toNat_shiftRight, step, Nat.shiftRight_eq_div_pow]
    omega
  have known : ((consumeVarint data).1 >>> 3).toInt64.toInt =
      (((consumeVarint data).1 >>> 3).toNat : Int) := by
    rw [toInt_eq_cond, UInt64.toUInt64_toInt64, if_pos (by omega)]
  rw [Int64.le_iff_toInt_le, Int64.toInt_zero, known] at positive
  rw [Numbered, known]
  omega

theorem scan_collect_numbered {data : Bytes} {fields all : List Field} {error : Option DecodeError}
    (scanned : scan collect fields data = (all, error)) (valid : ∀ f ∈ fields, Numbered f.Number) :
    ∀ f ∈ all, Numbered f.Number := by
  induction size : data.length using Nat.strong_induction_on generalizing data fields with
  | _ size ih =>
    by_cases more : data = []
    · subst more
      rw [scan_nil] at scanned
      rwa [← (Prod.mk.inj scanned).1]
    · cases read : nextField data with
      | error failure =>
        rw [scan_of_error fields more read] at scanned
        rwa [← (Prod.mk.inj scanned).1]
      | ok pair =>
        obtain ⟨field, rest⟩ := pair
        rw [scan_of_ok fields read] at scanned
        refine ih rest.length (size ▸ nextField_shorter read) scanned ?_ rfl
        intro f member
        rcases List.mem_append.mp member with old | new
        · exact valid f old
        · rw [List.mem_singleton.mp new]
          exact nextField_numbered read

/-- A scan yields the fields that were written just if their numbers leave room for the
wire type; a varint is read as it was written, whatever follows. -/
theorem wire_round_trip :
    (∀ (v : UInt64) (rest : Bytes),
        consumeVarint (putVarint v ++ rest) = (v, (putVarint v).length)) ∧
      ∀ writes : List Write, (encodeAll writes).length < 2 ^ 63 →
        (scan collect [] (encodeAll writes) = (writes.filterMap Write.field, none) ↔
          ∀ f ∈ writes.filterMap Write.field, Numbered f.Number) ∧
        ∀ write ∈ writes, ∀ f, write.field = some f → write.ReadsBack f := by
  refine ⟨consumeVarint_putVarint, fun writes short => ⟨⟨fun scanned => ?_, fun numbered => ?_⟩, ?_⟩⟩
  · exact scan_collect_numbered scanned (by simp)
  · exact scan_encodeAll [] numbered short
  · exact fun write _ f present => write.readsBack present

theorem wire_round_trip_nested :
    let writes : List Write :=
      [.int64 1 (-5), .bool 2 true, .string 3 [], .optString 4 (some []), .message 5 [.string 1 [104]]]
    scan collect [] (encodeAll writes) = (writes.filterMap Write.field, none) ∧
      writes.filterMap Write.field = [⟨1, WireVarint, (-5 : Int64).toUInt64, []⟩,
        ⟨2, WireVarint, 1, []⟩, ⟨4, WireBytes, 0, []⟩, ⟨5, WireBytes, 0, [10, 1, 104]⟩] := by
  have fields : ([.int64 1 (-5), .bool 2 true, .string 3 [], .optString 4 (some []),
      .message 5 [.string 1 [104]]] : List Write).filterMap Write.field =
      [⟨1, WireVarint, (-5 : Int64).toUInt64, []⟩, ⟨2, WireVarint, 1, []⟩, ⟨4, WireBytes, 0, []⟩,
        ⟨5, WireBytes, 0, [10, 1, 104]⟩] := by
    decide +kernel
  refine ⟨((wire_round_trip.2 _ (by decide +kernel)).1).mpr ?_, fields⟩
  rw [fields]
  unfold Numbered
  decide +kernel

/-- A field with number zero is written and not read back. -/
theorem wire_number_zero :
    (encodeAll [.uint64 0 7]).length < 2 ^ 63 ∧
      scan collect [] (encodeAll [.uint64 0 7]) = ([], some ⟨"invalid field number 0"⟩) ∧
      [Write.uint64 0 7].filterMap Write.field = [⟨0, WireVarint, 7, []⟩] := by
  decide +kernel

end LongTrader.Sdk
