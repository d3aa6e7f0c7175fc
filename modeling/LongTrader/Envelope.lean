import LongTrader.Contract

/-! The envelopes of a Connect stream: one byte of flags, the length of the payload in
four bytes, and the payload. -/

namespace LongTrader

/-- `envelope::FLAG_MESSAGE`. -/
def FLAG_MESSAGE : UInt8 := 0x00

/-- `envelope::FLAG_EOS`. -/
def FLAG_EOS : UInt8 := 0x02

/-- `u32::to_be_bytes`. -/
def toBeBytes (n : Nat) : Bytes := [.ofNat (n / 2 ^ 24), .ofNat (n / 2 ^ 16), .ofNat (n / 2 ^ 8), .ofNat n]

/-- `u32::from_be_bytes`. -/
def fromBeBytes (first second third fourth : UInt8) : Nat :=
  first.toNat * 2 ^ 24 + second.toNat * 2 ^ 16 + third.toNat * 2 ^ 8 + fourth.toNat

/-- `envelope::encode_envelope`; `none` is the panic on a payload that has no length prefix. -/
def encodeEnvelope (flags : UInt8) (payload : Bytes) : Option Bytes :=
  if payload.length < 2 ^ 32 then some (flags :: toBeBytes payload.length ++ payload) else none

/-- `envelope::EnvelopeError`. -/
inductive EnvelopeError where
  | tooShort
  | truncated (need have_ : Nat)
  deriving DecidableEq, Repr

/-- `envelope::decode_envelope_result`, with a 64 bit `usize`. -/
def decodeEnvelopeResult (buf : Bytes) : Except EnvelopeError (UInt8 × Bytes × Nat) :=
  match buf with
  | flags :: first :: second :: third :: fourth :: _ =>
    let len := fromBeBytes first second third fourth
    if buf.length < 5 + len then .error (.truncated (5 + len) buf.length)
    else .ok (flags, (buf.drop 5).take len, 5 + len)
  | _ => .error .tooShort

/-- `envelope::decode_envelope`. -/
def decodeEnvelope (buf : Bytes) : Except EnvelopeError (UInt8 × Bytes × Nat) :=
  decodeEnvelopeResult buf

theorem fromBeBytes_toBeBytes {n : Nat} (fits : n < 2 ^ 32) :
    fromBeBytes (.ofNat (n / 2 ^ 24)) (.ofNat (n / 2 ^ 16)) (.ofNat (n / 2 ^ 8)) (.ofNat n) = n := by
  simp only [fromBeBytes, UInt8.toNat_ofNat']
  omega

theorem decodeEnvelope_header (flags first second third fourth : UInt8) {payload : Bytes}
    (size : payload.length = fromBeBytes first second third fourth) (rest : Bytes) :
    decodeEnvelope (flags :: first :: second :: third :: fourth :: (payload ++ rest)) =
      .ok (flags, payload, 5 + payload.length) := by
  unfold decodeEnvelope decodeEnvelopeResult
  dsimp only
  rw [if_neg (by simp only [List.length_cons, List.length_append]; omega), ← size]
  simp

/-- A decoded envelope is a header and the payload it announces, and it consumes just
these. -/
theorem decodeEnvelope_ok {buf payload : Bytes} {flags : UInt8} {consumed : Nat}
    (decoded : decodeEnvelope buf = .ok (flags, payload, consumed)) :
    ∃ first second third fourth rest,
      buf = flags :: first :: second :: third :: fourth :: (payload ++ rest) ∧
      payload.length = fromBeBytes first second third fourth ∧ consumed = 5 + payload.length := by
  unfold decodeEnvelope decodeEnvelopeResult at decoded
  split at decoded
  · rename_i flags first second third fourth tail
    dsimp only at decoded
    split at decoded
    · cases decoded
    rename_i enough
    cases decoded
    simp only [List.length_cons] at enough
    have size : (tail.take (fromBeBytes first second third fourth)).length =
        fromBeBytes first second third fourth := by
      rw [List.length_take]
      omega
    refine ⟨first, second, third, fourth, tail.drop (fromBeBytes first second third fourth), ?_, size, ?_⟩
    · simp
    · rw [List.drop_succ_cons, List.drop_succ_cons, List.drop_succ_cons, List.drop_succ_cons,
        List.drop_succ_cons, List.drop_zero, size]
  · cases decoded

/-- The only errors: no header, or less payload than the header announces. -/
theorem decodeEnvelope_error {buf : Bytes} {error : EnvelopeError}
    (failed : decodeEnvelope buf = .error error) :
    error = .tooShort ∨ ∃ need, error = .truncated need buf.length := by
  unfold decodeEnvelope decodeEnvelopeResult at failed
  split at failed
  · dsimp only at failed
    split at failed
    · cases failed
      exact .inr ⟨_, rfl⟩
    · cases failed
  · cases failed
    exact .inl rfl

theorem decodeEnvelope_consumed {buf payload : Bytes} {flags : UInt8} {consumed : Nat}
    (decoded : decodeEnvelope buf = .ok (flags, payload, consumed)) :
    5 ≤ consumed ∧ consumed ≤ buf.length := by
  obtain ⟨first, second, third, fourth, rest, rfl, -, rfl⟩ := decodeEnvelope_ok decoded
  simp only [List.length_cons, List.length_append]
  omega

/-- Whatever follows a decoded envelope, it is decoded as it was. -/
theorem decodeEnvelope_append {buf payload : Bytes} {flags : UInt8} {consumed : Nat}
    (decoded : decodeEnvelope buf = .ok (flags, payload, consumed)) (more : Bytes) :
    decodeEnvelope (buf ++ more) = .ok (flags, payload, consumed) := by
  obtain ⟨first, second, third, fourth, rest, rfl, size, rfl⟩ := decodeEnvelope_ok decoded
  rw [List.cons_append, List.cons_append, List.cons_append, List.cons_append, List.cons_append,
    List.append_assoc]
  exact decodeEnvelope_header flags first second third fourth size (rest ++ more)

theorem encodeEnvelope_length {flags : UInt8} {payload frame : Bytes}
    (encoded : encodeEnvelope flags payload = some frame) : frame.length = 5 + payload.length := by
  unfold encodeEnvelope at encoded
  split at encoded
  · cases encoded
    simp only [toBeBytes, List.cons_append, List.nil_append, List.length_cons]
    omega
  · cases encoded

theorem decodeEnvelope_encode {flags : UInt8} {payload frame : Bytes}
    (encoded : encodeEnvelope flags payload = some frame) (rest : Bytes) :
    decodeEnvelope (frame ++ rest) = .ok (flags, payload, frame.length) := by
  rw [encodeEnvelope_length encoded]
  unfold encodeEnvelope at encoded
  split at encoded
  · rename_i fits
    cases encoded
    exact decodeEnvelope_header flags _ _ _ _ (fromBeBytes_toBeBytes fits).symm rest
  · cases encoded

/-- The loop of a reader: decode at the cursor and advance by what was consumed, to the
end of the stream. What was decoded, and where the cursor stops. -/
def decodeStream (stream : Bytes) (cursor : Nat) : Except EnvelopeError (List (UInt8 × Bytes) × Nat) :=
  if cursor < stream.length then
    match _ : decodeEnvelope (stream.drop cursor) with
    | .error error => .error error
    | .ok (flags, payload, consumed) =>
      (decodeStream stream (cursor + consumed)).map fun tail => ((flags, payload) :: tail.1, tail.2)
  else .ok ([], cursor)
termination_by stream.length - cursor
decreasing_by
  have advances := (decodeEnvelope_consumed ‹_›).1
  omega

theorem decodeStream_next {stream payload : Bytes} {cursor consumed : Nat} {flags : UInt8}
    (decoded : decodeEnvelope (stream.drop cursor) = .ok (flags, payload, consumed)) :
    decodeStream stream cursor =
      (decodeStream stream (cursor + consumed)).map fun tail => ((flags, payload) :: tail.1, tail.2) := by
  have inside : cursor < stream.length := by
    have consumes := decodeEnvelope_consumed decoded
    rw [List.length_drop] at consumes
    omega
  rw [decodeStream, if_pos inside]
  split
  · rename_i failed
    rw [decoded] at failed
    cases failed
  · rename_i again
    rw [decoded] at again
    cases again
    rfl

/-- The encodings of a list of frames, one after the other. -/
def encodeFrames : List (UInt8 × Bytes) → Option Bytes
  | [] => some []
  | (flags, payload) :: rest => do
    let head ← encodeEnvelope flags payload
    let tail ← encodeFrames rest
    return head ++ tail

theorem encodeFrames_cons {flags : UInt8} {payload stream : Bytes} {rest : List (UInt8 × Bytes)}
    (encoded : encodeFrames ((flags, payload) :: rest) = some stream) :
    ∃ head tail, encodeEnvelope flags payload = some head ∧ encodeFrames rest = some tail ∧
      stream = head ++ tail := by
  obtain ⟨head, first, encoded⟩ := Option.bind_eq_some_iff.mp encoded
  obtain ⟨tail, others, same⟩ := Option.bind_eq_some_iff.mp encoded
  exact ⟨head, tail, first, others, (Option.some.inj same).symm⟩

theorem exists_encodeFrames {frames : List (UInt8 × Bytes)}
    (fit : ∀ frame ∈ frames, frame.2.length < 2 ^ 32) : ∃ stream, encodeFrames frames = some stream := by
  induction frames with
  | nil => exact ⟨[], rfl⟩
  | cons frame rest ih =>
    obtain ⟨tail, encoded⟩ := ih fun other member => fit other (List.mem_cons_of_mem _ member)
    have head : encodeEnvelope frame.1 frame.2 = some (frame.1 :: toBeBytes frame.2.length ++ frame.2) :=
      if_pos (fit frame (List.mem_cons_self ..))
    exact ⟨frame.1 :: toBeBytes frame.2.length ++ frame.2 ++ tail, by simp [encodeFrames, head, encoded]⟩

theorem decodeStream_encodeFrames {frames : List (UInt8 × Bytes)} {stream : Bytes}
    (encoded : encodeFrames frames = some stream) (front : Bytes) :
    decodeStream (front ++ stream) front.length = .ok (frames, (front ++ stream).length) := by
  induction frames generalizing stream front with
  | nil =>
    cases encoded
    rw [List.append_nil, decodeStream, if_neg (Nat.lt_irrefl _)]
  | cons frame rest ih =>
    obtain ⟨head, tail, first, others, rfl⟩ := encodeFrames_cons encoded
    have decoded : decodeEnvelope ((front ++ (head ++ tail)).drop front.length) =
        .ok (frame.1, frame.2, head.length) := by
      rw [List.drop_left]
      exact decodeEnvelope_encode first tail
    have later := ih others (front ++ head)
    rw [List.append_assoc, List.length_append] at later
    rw [decodeStream_next decoded, later]
    rfl

/-- No strict prefix of a frame is taken for a frame. -/
theorem decodeEnvelope_prefix {flags : UInt8} {payload frame part : Bytes}
    (encoded : encodeEnvelope flags payload = some frame) (begins : part <+: frame)
    (strict : part ≠ frame) : decodeEnvelope part = .error .tooShort ∨
      ∃ need, decodeEnvelope part = .error (.truncated need part.length) := by
  cases decoded : decodeEnvelope part with
  | error error =>
    rcases decodeEnvelope_error decoded with rfl | ⟨need, rfl⟩
    · exact .inl rfl
    · exact .inr ⟨need, rfl⟩
  | ok found =>
    obtain ⟨otherFlags, otherPayload, consumed⟩ := found
    obtain ⟨more, whole⟩ := begins
    have again := decodeEnvelope_append decoded more
    have first := decodeEnvelope_encode encoded []
    rw [List.append_nil, ← whole, again] at first
    have size : consumed = (part ++ more).length := by cases first; rfl
    have bound := (decodeEnvelope_consumed decoded).2
    rw [size, List.length_append] at bound
    have none_more : more = [] := List.eq_nil_of_length_eq_zero (by omega)
    rw [none_more, List.append_nil] at whole
    exact absurd whole strict

/-- Frames are read back as they were written; a decoded frame consumes a header at least
and no more than there is; a part of a frame is not decoded. -/
theorem envelope_round_trip :
    (∀ frames : List (UInt8 × Bytes), (∀ frame ∈ frames, frame.2.length < 2 ^ 32) →
        ∃ stream, encodeFrames frames = some stream ∧
          decodeStream stream 0 = .ok (frames, stream.length)) ∧
      (∀ buf flags payload consumed, decodeEnvelope buf = .ok (flags, payload, consumed) →
        5 ≤ consumed ∧ consumed ≤ buf.length) ∧
      ∀ flags payload frame part, encodeEnvelope flags payload = some frame → part <+: frame →
        part ≠ frame → decodeEnvelope part = .error .tooShort ∨
          ∃ need, decodeEnvelope part = .error (.truncated need part.length) := by
  refine ⟨fun frames fit => ?_, ?_, ?_⟩
  · obtain ⟨stream, encoded⟩ := exists_encodeFrames fit
    exact ⟨stream, encoded, decodeStream_encodeFrames encoded []⟩
  · exact fun buf flags payload consumed decoded => decodeEnvelope_consumed decoded
  · exact fun flags payload frame part encoded begins strict =>
      decodeEnvelope_prefix encoded begins strict

theorem envelope_round_trip_two : ∃ stream,
    encodeFrames [(FLAG_MESSAGE, [104, 105]), (FLAG_EOS, [])] = some stream ∧
      stream = [0, 0, 0, 0, 2, 104, 105, 2, 0, 0, 0, 0] ∧
      decodeStream stream 0 = .ok ([(FLAG_MESSAGE, [104, 105]), (FLAG_EOS, [])], 12) := by
  obtain ⟨stream, encoded, decoded⟩ :=
    envelope_round_trip.1 [(FLAG_MESSAGE, [104, 105]), (FLAG_EOS, [])] (by decide)
  have bytes : encodeFrames [(FLAG_MESSAGE, [104, 105]), (FLAG_EOS, [])] =
      some [0, 0, 0, 0, 2, 104, 105, 2, 0, 0, 0, 0] := by
    decide +kernel
  obtain rfl := Option.some.inj (encoded.symm.trans bytes)
  exact ⟨_, encoded, rfl, decoded⟩

end LongTrader
