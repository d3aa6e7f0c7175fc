import LongTrader.Contract
import Mathlib.Data.Nat.Bits
import Mathlib.Data.Nat.Digits.Defs

/-! The hand-written protobuf codec of the Go SDK: the bytes that each write of an
encoder appends, and the scan that reads them back field by field. -/

namespace LongTrader.Sdk

/-- `contract.WireVarint`. -/
def WireVarint : Int64 := 0

/-- `contract.WireFixed64`. -/
def WireFixed64 : Int64 := 1

/-- `contract.WireBytes`. -/
def WireBytes : Int64 := 2

/-- `contract.WireFixed32`. -/
def WireFixed32 : Int64 := 5

/-- `contract.DecodeError`. -/
structure DecodeError where
  Msg : String
  deriving DecidableEq, Repr

/-- What `Encoder.putVarint` appends. -/
def putVarint (v : UInt64) : Bytes :=
  if 0x80 ≤ v then (v.toUInt8 ||| 0x80) :: putVarint (v >>> 7) else [v.toUInt8]
termination_by v.toNat
decreasing_by
  rename_i big
  have small : (v >>> 7).toNat = v.toNat / 128 := by
    simp [Nat.shiftRight_eq_div_pow]
  have large : 128 ≤ v.toNat := by simpa [UInt64.le_iff_toNat_le] using big
  omega

/-- What `Encoder.putTag` appends. -/
def putTag (num wire : Int64) : Bytes := putVarint (num.toUInt64 <<< 3 ||| wire.toUInt64)

/-- What `Encoder.putLengthDelimited` appends. -/
def putLengthDelimited (num : Int64) (b : Bytes) : Bytes :=
  putTag num WireBytes ++ putVarint (.ofNat b.length) ++ b

/-- `binary.LittleEndian.AppendUint64` and `AppendUint32`, by the number of bytes. -/
def appendLittleEndian (width : Nat) (v : Nat) : Bytes :=
  (List.range width).map fun i => UInt8.ofNat (v / 256 ^ i)

/-- `binary.LittleEndian.Uint64` and `Uint32`. -/
def littleEndian (b : Bytes) : UInt64 := .ofNat (Nat.ofDigits 256 (b.map UInt8.toNat))

/-- The writes of an encoder. A string is any sequence of bytes, and a message is what its
`MarshalTo` writes, if it is not nil. -/
inductive Write where
  | varint (num : Int64) (v : UInt64)
  | int64 (num : Int64) (v : Int64)
  | int32 (num : Int64) (v : Int32)
  | uint64 (num : Int64) (v : UInt64)
  | uint32 (num : Int64) (v : UInt32)
  | bool (num : Int64) (v : Bool)
  | string (num : Int64) (v : Bytes)
  | optString (num : Int64) (v : Option Bytes)
  | bytesField (num : Int64) (v : Bytes)
  | fixed64 (num : Int64) (v : UInt64)
  | fixed32 (num : Int64) (v : UInt32)
  | nilMessage (num : Int64)
  | message (num : Int64) (body : List Write)

/-- `Encoder.Varint`. -/
def encodeVarint (num : Int64) (v : UInt64) : Bytes :=
  if v = 0 then [] else putTag num WireVarint ++ putVarint v

/-- `Encoder.Bool`. -/
def encodeBool (num : Int64) (v : Bool) : Bytes :=
  if !v then [] else putTag num WireVarint ++ putVarint 1

/-- `Encoder.String`. -/
def encodeString (num : Int64) (v : Bytes) : Bytes :=
  if v = [] then [] else putLengthDelimited num v

/-- `Encoder.OptString`. -/
def encodeOptString (num : Int64) (v : Option Bytes) : Bytes :=
  match v with
  | none => []
  | some v => putLengthDelimited num v

/-- `Encoder.BytesField`. -/
def encodeBytesField (num : Int64) (v : Bytes) : Bytes :=
  if v.length = 0 then [] else putLengthDelimited num v

/-- `Encoder.Fixed64`. -/
def encodeFixed64 (num : Int64) (v : UInt64) : Bytes :=
  if v = 0 then [] else putTag num WireFixed64 ++ appendLittleEndian 8 v.toNat

/-- `Encoder.Fixed32`. -/
def encodeFixed32 (num : Int64) (v : UInt32) : Bytes :=
  if v = 0 then [] else putTag num WireFixed32 ++ appendLittleEndian 4 v.toNat

mutual

/-- What one write appends. -/
def Write.encode : Write → Bytes
  | .varint num v => encodeVarint num v
  | .int64 num v => encodeVarint num v.toUInt64
  | .int32 num v => encodeVarint num v.toInt64.toUInt64
  | .uint64 num v => encodeVarint num v
  | .uint32 num v => encodeVarint num v.toUInt64
  | .bool num v => encodeBool num v
  | .string num v => encodeString num v
  | .optString num v => encodeOptString num v
  | .bytesField num v => encodeBytesField num v
  | .fixed64 num v => encodeFixed64 num v
  | .fixed32 num v => encodeFixed32 num v
  | .nilMessage _ => []
  | .message num body => putLengthDelimited num (encodeAll body)

/-- What an encoder holds after a sequence of writes. -/
def encodeAll : List Write → Bytes
  | [] => []
  | write :: rest => write.encode ++ encodeAll rest

end

/-- `contract.Field`. -/
structure Field where
  Number : Int64
  Wire : Int64
  Varint : UInt64
  Data : Bytes
  deriving DecidableEq, Repr

/-- `Field.AsInt32`. -/
def Field.AsInt32 (f : Field) : Int32 := f.Varint.toUInt32.toInt32

/-- `Field.AsInt64`. -/
def Field.AsInt64 (f : Field) : Int64 := f.Varint.toInt64

/-- `Field.AsBool`. -/
def Field.AsBool (f : Field) : Bool := f.Varint != 0

/-- `Field.AsUint32`. -/
def Field.AsUint32 (f : Field) : UInt32 := f.Varint.toUInt32

/-- `Field.AsUint64`. -/
def Field.AsUint64 (f : Field) : UInt64 := f.Varint

/-- `Field.AsString`, as its bytes. -/
def Field.AsString (f : Field) : Bytes := f.Data

/-- The loop of `consumeVarint`, from index `i` on. -/
def consumeVarintFrom (v : UInt64) (i : Nat) : Bytes → UInt64 × Nat
  | [] => (0, 0)
  | b :: rest =>
    if i < 10 then
      let v := v ||| (b &&& 0x7f).toUInt64 <<< .ofNat (7 * i)
      if b < 0x80 then (v, i + 1) else consumeVarintFrom v (i + 1) rest
    else (0, 0)

/-- `contract.consumeVarint`. -/
def consumeVarint (b : Bytes) : UInt64 × Nat := consumeVarintFrom 0 0 b

/-- The switch of `contract.Scan` over the wire type: the payload of a field, and what
follows it. -/
def fieldPayload (num wire : Int64) (data : Bytes) : Except DecodeError (Field × Bytes) :=
  if wire = WireVarint then
    let (v, n) := consumeVarint data
    if n = 0 then .error ⟨s!"field {num}: truncated varint"⟩
    else .ok (⟨num, wire, v, []⟩, data.drop n)
  else if wire = WireFixed64 then
    if data.length < 8 then .error ⟨s!"field {num}: truncated fixed64"⟩
    else .ok (⟨num, wire, littleEndian (data.take 8), []⟩, data.drop 8)
  else if wire = WireBytes then
    let (length, n) := consumeVarint data
    if n = 0 then .error ⟨s!"field {num}: truncated length prefix"⟩
    else
      let data := data.drop n
      if .ofNat data.length < length then
        .error ⟨s!"field {num}: truncated payload, want {length} have {data.length}"⟩
      else .ok (⟨num, wire, 0, data.take length.toNat⟩, data.drop length.toNat)
  else if wire = WireFixed32 then
    if data.length < 4 then .error ⟨s!"field {num}: truncated fixed32"⟩
    else .ok (⟨num, wire, littleEndian (data.take 4), []⟩, data.drop 4)
  else if wire = 3 ∨ wire = 4 then .error ⟨s!"field {num}: groups are not supported"⟩
  else .error ⟨s!"field {num}: unknown wire type {wire}"⟩

/-- One round of `contract.Scan`: the field at the head of the data, and what follows it. -/
def nextField (data : Bytes) : Except DecodeError (Field × Bytes) :=
  let (tag, n) := consumeVarint data
  if n = 0 then .error ⟨"truncated field tag"⟩
  else
    let num := (tag >>> 3).toInt64
    let wire := (tag &&& 0x7).toInt64
    if num ≤ 0 then .error ⟨s!"invalid field number {num}"⟩
    else fieldPayload num wire (data.drop n)

theorem consumeVarintFrom_bounds (v : UInt64) (i : Nat) (b : Bytes) :
    (consumeVarintFrom v i b).2 = 0 ∨
      i < (consumeVarintFrom v i b).2 ∧ (consumeVarintFrom v i b).2 ≤ i + b.length := by
  induction b generalizing v i with
  | nil => exact .inl rfl
  | cons b rest ih =>
    unfold consumeVarintFrom
    dsimp only
    split
    · split
      · right
        simp
      · rcases ih (v ||| (b &&& 0x7f).toUInt64 <<< .ofNat (7 * i)) (i + 1) with none | ⟨low, high⟩
        · exact .inl none
        · right
          rw [List.length_cons]
          omega
    · exact .inl rfl

theorem fieldPayload_length {num wire : Int64} {data rest : Bytes} {field : Field}
    (read : fieldPayload num wire data = .ok (field, rest)) : rest.length ≤ data.length := by
  unfold fieldPayload at read
  dsimp only at read
  repeat' split at read
  all_goals cases read
  all_goals simp only [List.length_drop]
  all_goals omega

/-- What is read of a field is at least its tag. -/
theorem nextField_shorter {data rest : Bytes} {field : Field}
    (read : nextField data = .ok (field, rest)) : rest.length < data.length := by
  have tag := consumeVarintFrom_bounds 0 0 data
  unfold nextField consumeVarint at read
  dsimp only at read
  split at read
  · cases read
  split at read
  · cases read
  have payload := fieldPayload_length read
  rw [List.length_drop] at payload
  omega

/-- `contract.Scan`: `fn` is called for each field with what it has gathered so far. -/
def scan {σ : Type} (fn : Field → σ → σ × Option DecodeError) (state : σ) (data : Bytes) :
    σ × Option DecodeError :=
  if data = [] then (state, none)
  else match _ : nextField data with
    | .error error => (state, some error)
    | .ok (field, rest) => match fn field state with
      | (state, some error) => (state, some error)
      | (state, none) => scan fn state rest
termination_by data.length
decreasing_by exact nextField_shorter ‹_›

section Scan

variable {σ : Type} {fn : Field → σ → σ × Option DecodeError} {data rest : Bytes} {field : Field}

theorem scan_nil (state : σ) : scan fn state [] = (state, none) := by
  rw [scan, if_pos rfl]

theorem scan_of_ok (state : σ) (read : nextField data = .ok (field, rest)) :
    scan fn state data = match fn field state with
      | (state, some error) => (state, some error)
      | (state, none) => scan fn state rest := by
  have more : data ≠ [] := by
    rintro rfl
    cases read
  rw [scan, if_neg more]
  split
  · rename_i failed
    rw [read] at failed
    cases failed
  · rename_i given
    rw [read] at given
    cases given
    rfl

theorem scan_of_error (state : σ) {error : DecodeError} (more : data ≠ [])
    (read : nextField data = .error error) : scan fn state data = (state, some error) := by
  rw [scan, if_neg more]
  split
  · rename_i failed
    rw [read] at failed
    cases failed
    rfl
  · rename_i given
    rw [read] at given
    cases given

end Scan

section Varint

theorem toNat_shiftRight_seven (v : UInt64) : (v >>> 7).toNat = v.toNat / 128 := by
  simp [Nat.shiftRight_eq_div_pow]

/-- The payload of a byte that is not the last. -/
theorem toNat_payload (v : UInt64) :
    ((v.toUInt8 ||| 0x80) &&& 0x7f).toUInt64.toNat = v.toNat % 128 := by
  have mask : (0x7f : UInt8).toNat = 2 ^ 7 - 1 := rfl
  have flag : (0x80 : UInt8).toNat % 2 ^ 7 = 0 := rfl
  rw [UInt8.toNat_toUInt64, UInt8.toNat_and, mask, Nat.and_two_pow_sub_one_eq_mod, UInt8.toNat_or,
    Nat.or_mod_two_pow, flag, Nat.or_zero, UInt64.toNat_toUInt8]
  omega

theorem toNat_payload_last (v : UInt64) (last : v.toNat < 128) :
    (v.toUInt8 &&& 0x7f).toUInt64.toNat = v.toNat := by
  have mask : (0x7f : UInt8).toNat = 2 ^ 7 - 1 := rfl
  rw [UInt8.toNat_toUInt64, UInt8.toNat_and, mask, Nat.and_two_pow_sub_one_eq_mod,
    UInt64.toNat_toUInt8]
  omega

/-- Groups of seven bits that are put above each other do not meet. -/
theorem toNat_or_shiftLeft {v payload : UInt64} {i : Nat} (low : v.toNat < 2 ^ (7 * i)) (short : i < 10)
    (fits : payload.toNat * 2 ^ (7 * i) < 2 ^ 64) :
    (v ||| payload <<< .ofNat (7 * i)).toNat = v.toNat + payload.toNat * 2 ^ (7 * i) := by
  have shift : (UInt64.ofNat (7 * i)).toNat % 64 = 7 * i := by
    rw [UInt64.toNat_ofNat']
    omega
  rw [UInt64.toNat_or, UInt64.toNat_shiftLeft, shift, Nat.shiftLeft_eq, Nat.mod_eq_of_lt fits,
    Nat.or_comm, Nat.mul_comm, ← Nat.two_pow_add_eq_or_of_lt low, Nat.add_comm]

/-- Reading on at index `i` adds the value that was written, moved to its place. -/
theorem consumeVarintFrom_putVarint (v read : UInt64) (i : Nat) (rest : Bytes)
    (low : read.toNat < 2 ^ (7 * i)) (short : i < 10) (fits : v.toNat * 2 ^ (7 * i) < 2 ^ 64) :
    consumeVarintFrom read i (putVarint v ++ rest) =
      (.ofNat (read.toNat + v.toNat * 2 ^ (7 * i)), i + (putVarint v).length) := by
  induction v using putVarint.induct generalizing read i with
  | case1 v big ih =>
    have large : 128 ≤ v.toNat := by simpa [UInt64.le_iff_toNat_le] using big
    have continues : ¬ v.toUInt8 ||| 0x80 < 0x80 := by
      rw [UInt8.lt_iff_toNat_lt, UInt8.toNat_or, Nat.not_lt]
      exact Nat.right_le_or
    have payload := toNat_payload v
    have unit : 2 ^ (7 * (i + 1)) = 128 * 2 ^ (7 * i) := by
      rw [Nat.mul_succ, Nat.pow_add, Nat.mul_comm]
    have high : v.toNat / 128 * 2 ^ (7 * (i + 1)) + v.toNat % 128 * 2 ^ (7 * i) =
        v.toNat * 2 ^ (7 * i) := by
      rw [unit, ← Nat.mul_assoc, ← Nat.add_mul, Nat.div_add_mod']
    have next : (read ||| ((v.toUInt8 ||| 0x80) &&& 0x7f).toUInt64 <<< .ofNat (7 * i)).toNat =
        read.toNat + v.toNat % 128 * 2 ^ (7 * i) := by
      rw [toNat_or_shiftLeft low short (by rw [payload]; omega), payload]
    have below : read.toNat + v.toNat % 128 * 2 ^ (7 * i) < 2 ^ (7 * (i + 1)) := by
      have most : v.toNat % 128 * 2 ^ (7 * i) ≤ 127 * 2 ^ (7 * i) := Nat.mul_le_mul_right _ (by omega)
      omega
    have room : i + 1 < 10 := by
      have most : 2 ^ (7 * (i + 1)) < 2 ^ 64 := by
        rw [unit]
        exact Nat.lt_of_le_of_lt (Nat.mul_le_mul_right _ large) fits
      have := (Nat.pow_lt_pow_iff_right (by decide)).mp most
      omega
    rw [putVarint, if_pos big, List.cons_append, consumeVarintFrom, if_pos short]
    dsimp only
    rw [if_neg continues, ih _ (i + 1) (by rwa [next]) room (by rw [toNat_shiftRight_seven]; omega),
      next, toNat_shiftRight_seven, List.length_cons]
    refine Prod.ext ?_ ?_
    · dsimp only
      congr 1
      omega
    · dsimp only
      omega
  | case2 v small =>
    have last : v.toNat < 128 := by simpa [UInt64.le_iff_toNat_le] using small
    have ends : v.toUInt8 < 0x80 := by
      rw [UInt8.lt_iff_toNat_lt, UInt64.toNat_toUInt8]
      have bound : (0x80 : UInt8).toNat = 128 := rfl
      omega
    have payload := toNat_payload_last v last
    have whole := toNat_or_shiftLeft low short (by rwa [payload])
    rw [payload] at whole
    rw [putVarint, if_neg small, List.singleton_append, consumeVarintFrom, if_pos short]
    dsimp only
    rw [if_pos ends, ← whole, UInt64.ofNat_toNat]
    rfl

theorem consumeVarint_putVarint (v : UInt64) (rest : Bytes) :
    consumeVarint (putVarint v ++ rest) = (v, (putVarint v).length) := by
  have read := consumeVarintFrom_putVarint v 0 0 rest (by decide) (by decide)
    (by simpa using v.toNat_lt)
  simpa [consumeVarint] using read

theorem putVarint_pos (v : UInt64) : 0 < (putVarint v).length := by
  rw [putVarint]
  split <;> simp

end Varint

end LongTrader.Sdk
