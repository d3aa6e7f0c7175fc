import LongTrader.Sdk.Stream

/-! `FirstMessagePayload` of the Go SDK beside the first `Next` of a stream decoder. Both
look for the first data frame; only the decoder stops at an end-of-stream frame. -/

namespace LongTrader.Sdk

/-- The errors of `FirstMessagePayload`. -/
inductive FirstMessageError where
  | noMessageFrame
  | truncatedFrame
  | frameTooLarge (length : Nat)
  deriving DecidableEq, Repr

/-- `session.FirstMessagePayload`, on what is behind `pos`. -/
def FirstMessagePayload (buf : Bytes) : Except FirstMessageError Bytes :=
  match buf with
  | flags :: first :: second :: third :: fourth :: rest =>
    let length := fromBeBytes first second third fourth
    if MaxFrameLength < length then .error (.frameTooLarge length)
    else if rest.length < length then .error .truncatedFrame
    else if flags &&& FlagEndOfStream == 0 then .ok (rest.take length)
    else FirstMessagePayload (rest.drop length)
  | _ => .error .noMessageFrame
termination_by buf.length
decreasing_by simp only [List.length_drop, List.length_cons]; omega

section Frames

theorem toBeBytes_fromBeBytes (first second third fourth : UInt8) :
    toBeBytes (fromBeBytes first second third fourth) = [first, second, third, fourth] := by
  have bytes := And.intro first.toNat_lt (And.intro second.toNat_lt (And.intro third.toNat_lt fourth.toNat_lt))
  simp only [toBeBytes, fromBeBytes, List.cons.injEq, ← UInt8.toNat_inj, UInt8.toNat_ofNat', and_true]
  omega

variable {payload rest buf : Bytes} {flags : UInt8}

/-- A header and enough bytes behind it are a whole frame. -/
theorem envelope_of_header {first second third fourth : UInt8} {tail : Bytes} {length : Nat}
    (announced : toBeBytes length = [first, second, third, fourth]) (whole : ¬ tail.length < length) :
    flags :: first :: second :: third :: fourth :: tail =
      Envelope (tail.take length) flags ++ tail.drop length := by
  have size : (tail.take length).length = length := by
    rw [List.length_take]
    omega
  unfold Envelope
  rw [size, announced]
  simp only [List.cons_append, List.nil_append, List.take_append_drop]

theorem FirstMessagePayload_envelope (small : payload.length ≤ MaxFrameLength) (flags : UInt8)
    (rest : Bytes) :
    FirstMessagePayload (Envelope payload flags ++ rest) =
      if flags &&& FlagEndOfStream == 0 then .ok payload else FirstMessagePayload rest := by
  have fits : payload.length < 2 ^ 32 := Nat.lt_of_le_of_lt small (by decide)
  have whole : ¬ (payload ++ rest).length < payload.length := by
    rw [List.length_append]
    omega
  unfold Envelope toBeBytes
  simp only [List.cons_append, List.nil_append]
  rw [FirstMessagePayload, fromBeBytes_toBeBytes fits]
  rw [if_neg (Nat.not_lt.mpr small), if_neg whole, List.take_left, List.drop_left]

/-- Without a whole frame at the front both readers fail. -/
theorem front_cases (buf : Bytes) :
    (∃ payload flags rest, payload.length ≤ MaxFrameLength ∧ buf = Envelope payload flags ++ rest) ∨
      (∃ error, FirstMessagePayload buf = .error error) ∧
        (nextBuffered buf = .incomplete ∨ ∃ length, nextBuffered buf = .stop (.tooLarge length)) := by
  by_cases header : ∃ flags first second third fourth tail,
      buf = flags :: first :: second :: third :: fourth :: tail
  · obtain ⟨flags, first, second, third, fourth, tail, rfl⟩ := header
    have announced := toBeBytes_fromBeBytes first second third fourth
    rw [FirstMessagePayload, nextBuffered_header]
    by_cases large : MaxFrameLength < fromBeBytes first second third fourth
    · right
      dsimp only
      rw [if_pos large, if_pos large]
      exact ⟨⟨_, rfl⟩, .inr ⟨_, rfl⟩⟩
    · by_cases short : tail.length < fromBeBytes first second third fourth
      · right
        dsimp only
        rw [if_neg large, if_neg large, if_pos short, if_pos short]
        exact ⟨⟨_, rfl⟩, .inl rfl⟩
      · left
        refine ⟨_, flags, _, ?_, envelope_of_header announced short⟩
        rw [List.length_take]
        omega
  · right
    refine ⟨⟨.noMessageFrame, ?_⟩, .inl ?_⟩
    · rw [FirstMessagePayload]
      rintro flags first second third fourth tail rfl
      exact header ⟨_, _, _, _, _, _, rfl⟩
    · by_contra found
      exact header (header_of_nextBuffered found)

end Frames

/-- Whole end-of-stream frames, maybe none, and a whole data frame behind them. -/
inductive ReachesData : Bytes → Prop where
  | data {payload : Bytes} {flags : UInt8} (small : payload.length ≤ MaxFrameLength)
      (isData : flags &&& FlagEndOfStream = 0) (rest : Bytes) :
      ReachesData (Envelope payload flags ++ rest)
  | skip {payload : Bytes} {flags : UInt8} (small : payload.length ≤ MaxFrameLength)
      (ends : flags &&& FlagEndOfStream ≠ 0) {rest : Bytes} (behind : ReachesData rest) :
      ReachesData (Envelope payload flags ++ rest)

/-- A body that goes on with data behind its end-of-stream frame. -/
def Overruns (buf : Bytes) : Prop :=
  ∃ payload flags rest, payload.length ≤ MaxFrameLength ∧ flags &&& FlagEndOfStream ≠ 0 ∧
    buf = Envelope payload flags ++ rest ∧ ReachesData rest

theorem FirstMessagePayload_ok_iff (buf : Bytes) :
    (∃ payload, FirstMessagePayload buf = .ok payload) ↔ ReachesData buf := by
  constructor
  · rintro ⟨payload, found⟩
    induction size : buf.length using Nat.strongRecOn generalizing buf with
    | ind bound ih =>
      rcases front_cases buf with ⟨front, flags, rest, small, rfl⟩ | ⟨⟨error, failed⟩, _⟩
      · rw [FirstMessagePayload_envelope small] at found
        split at found
        · rename_i isData
          exact .data small (by simpa using isData) rest
        · rename_i ends
          have shorter : rest.length < bound := by
            rw [← size, List.length_append, Envelope_length, EnvelopeHeaderSize]
            omega
          exact .skip small (by simpa using ends) (ih _ shorter rest found rfl)
      · rw [failed] at found
        cases found
  · intro reaches
    induction reaches with
    | data small isData rest =>
      exact ⟨_, by rw [FirstMessagePayload_envelope small, if_pos (by simpa using isData)]⟩
    | skip small ends _ ih =>
      obtain ⟨payload, found⟩ := ih
      refine ⟨payload, ?_⟩
      rw [FirstMessagePayload_envelope small, if_neg (by simpa using ends), found]

section First

/-- What the first frame of a stream comes to. -/
def firstFrame (stream : Bytes) : Except StreamError Bytes :=
  match nextBuffered stream with
  | .item payload _ => .ok payload
  | .stop (.endOfStream _) => .error .EOF
  | .stop (.tooLarge length) => .error (.frameTooLarge length)
  | .incomplete => .error (if stream = [] then .EOF else .truncatedFrame)

/-- `Next` returns the first frame of what is buffered and heard. -/
theorem StreamDecoder.Next_firstFrame {d : StreamDecoder} (fresh : d.done = false)
    (unfailing : ∀ read ∈ d.r, read.err ≠ some .failed) :
    d.Next.1 = firstFrame (d.avail ++ heard d.r) := by
  induction size : d.r.length using Nat.strongRecOn generalizing d with
  | ind bound ih =>
    unfold firstFrame
    cases d.turn with
    | item payload rest found =>
      have front : nextBuffered (d.avail ++ heard d.r) = .item payload (rest ++ heard d.r) :=
        @Framing.Format.item_append _ _ _ frames _ _ _ found _
      rw [StreamDecoder.Next_item fresh found, front]
    | endOfStream payload found =>
      have front : nextBuffered (d.avail ++ heard d.r) = .stop (.endOfStream payload) :=
        @Framing.Format.stop_append _ _ _ frames _ _ found _
      rw [StreamDecoder.Next_endOfStream fresh found, front]
    | tooLarge length found =>
      have front : nextBuffered (d.avail ++ heard d.r) = .stop (.tooLarge length) :=
        @Framing.Format.stop_append _ _ _ frames _ _ found _
      rw [StreamDecoder.Next_tooLarge fresh found, front]
    | exhausted found none_left =>
      have silent : heard d.r = [] := by rw [none_left]; rfl
      rw [StreamDecoder.Next_exhausted fresh found none_left, silent, List.append_nil, found]
      dsimp only
      split
      · rfl
      · rfl
    | read read rest found reads some_data =>
      have shorter : rest.length < bound := by
        rw [← size, reads]
        exact Nat.lt_succ_self _
      have later := @ih rest.length shorter { d with r := rest, avail := d.avail ++ read.data } fresh
        (fun other member => unfailing other (by rw [reads]; exact List.mem_cons_of_mem _ member)) rfl
      rw [StreamDecoder.Next_read fresh found reads some_data, later, reads,
        heard_cons_of_data some_data, ← List.append_assoc]
      rfl
    | noData read rest found reads no_data =>
      have silent : heard d.r = [] := by rw [reads, heard_cons_of_no_data no_data]
      have ended : read.err.getD .EOF = .EOF := by
        have sound := unfailing read (by rw [reads]; exact List.mem_cons_self ..)
        rcases err : read.err with _ | (_ | _)
        · rfl
        · rfl
        · exact absurd err sound
      rw [StreamDecoder.Next_no_data fresh found reads no_data, silent, List.append_nil, found]
      dsimp only
      by_cases whole : d.avail = []
      · rw [if_pos ⟨ended, whole⟩, if_pos whole]
      · rw [if_neg fun both => whole both.2, if_neg whole]

end First

section Agreement

/-- Both readers on the first frame of a buffer. -/
theorem first_frame_cases (buf : Bytes) :
    (∃ payload, FirstMessagePayload buf = .ok payload ∧ firstFrame buf = .ok payload) ∨
      (∃ error, FirstMessagePayload buf = .error error) ∧ (∃ error, firstFrame buf = .error error) ∨
      Overruns buf ∧ (∃ payload, FirstMessagePayload buf = .ok payload) ∧
        firstFrame buf = .error .EOF := by
  rcases front_cases buf with ⟨payload, flags, rest, small, rfl⟩ | ⟨failed, found⟩
  · by_cases isData : flags &&& FlagEndOfStream = 0
    · left
      refine ⟨payload, ?_, ?_⟩
      · rw [FirstMessagePayload_envelope small, if_pos (by simpa using isData)]
      · rw [firstFrame, nextBuffered_envelope small, if_neg (by simpa using isData)]
    · right
      have stopped : firstFrame (Envelope payload flags ++ rest) = .error .EOF := by
        rw [firstFrame, nextBuffered_envelope small, if_pos (by simpa using isData)]
      have skipped := FirstMessagePayload_envelope small flags rest
      rw [if_neg (by simpa using isData)] at skipped
      rw [skipped]
      cases found : FirstMessagePayload rest with
      | error error => exact .inl ⟨⟨error, rfl⟩, .EOF, stopped⟩
      | ok later =>
        have reaches := (FirstMessagePayload_ok_iff rest).mp ⟨later, found⟩
        exact .inr ⟨⟨payload, flags, rest, small, isData, rfl, reaches⟩, ⟨later, rfl⟩, stopped⟩
  · right
    left
    refine ⟨failed, ?_⟩
    unfold firstFrame
    rcases found with found | ⟨length, found⟩
    · rw [found]
      exact ⟨_, rfl⟩
    · rw [found]
      exact ⟨_, rfl⟩

theorem Overruns.firstFrame {buf : Bytes} (overruns : Overruns buf) : firstFrame buf = .error .EOF := by
  obtain ⟨payload, flags, rest, small, ends, rfl, _⟩ := overruns
  rw [LongTrader.Sdk.firstFrame, nextBuffered_envelope small, if_pos (by simpa using ends)]

theorem Overruns.found {buf : Bytes} (overruns : Overruns buf) :
    ∃ payload, FirstMessagePayload buf = .ok payload := by
  obtain ⟨payload, flags, rest, small, ends, rfl, reaches⟩ := overruns
  rw [FirstMessagePayload_ok_iff]
  exact .skip small ends reaches

/-- A reader that returns these bytes: it does not fail, and no read before their end is
empty. -/
def Delivers (r : List Read) (buf : Bytes) : Prop :=
  (∀ read ∈ r, read.err ≠ some .failed) ∧ streamOf r = buf ∧ unheard r = []

/-- The two readers agree on a body just if it does not go on with data behind its
end-of-stream frame. -/
theorem first_message_agrees_iff {r : List Read} {buf : Bytes} (delivers : Delivers r buf) :
    ((∀ payload, FirstMessagePayload buf = .ok payload ↔
          (NewStreamDecoder r).Next.1 = .ok payload) ∧
        ((∃ error, FirstMessagePayload buf = .error error) ↔
          ∃ error, (NewStreamDecoder r).Next.1 = .error error)) ↔
      ¬ Overruns buf := by
  obtain ⟨unfailing, same, silent⟩ := delivers
  have next : (NewStreamDecoder r).Next.1 = firstFrame buf := by
    rw [StreamDecoder.Next_firstFrame rfl unfailing, ← same, streamOf_eq, silent, List.append_nil]
    rfl
  rw [next]
  constructor
  · rintro ⟨payloads, _⟩ overruns
    obtain ⟨payload, found⟩ := overruns.found
    have both := (payloads payload).mp found
    rw [overruns.firstFrame] at both
    cases both
  · intro within
    rcases first_frame_cases buf with ⟨payload, left, right⟩ |
      ⟨⟨failure, left⟩, error, right⟩ | ⟨overruns, _⟩
    · simp [left, right]
    · simp [left, right]
    · exact absurd overruns within

/-- A reply of one message, with its end-of-stream frame. -/
theorem first_message_agrees_iff_reply :
    FirstMessagePayload (Envelope [8, 1] 0 ++ Envelope [123, 125] 2) = .ok [8, 1] ∧
      (NewStreamDecoder [⟨Envelope [8, 1] 0, none⟩, ⟨Envelope [123, 125] 2, some .EOF⟩]).Next.1 =
        .ok [8, 1] := by
  have found : FirstMessagePayload (Envelope [8, 1] 0 ++ Envelope [123, 125] 2) = .ok [8, 1] := by
    rw [FirstMessagePayload_envelope (by decide), if_pos (by decide)]
  refine ⟨found, ?_⟩
  have agrees := @first_message_agrees_iff
    [⟨Envelope [8, 1] 0, none⟩, ⟨Envelope [123, 125] 2, some .EOF⟩]
    (Envelope [8, 1] 0 ++ Envelope [123, 125] 2) ⟨by decide, by decide, by decide⟩
  refine ((agrees.mpr ?_).1 [8, 1]).mp found
  intro overruns
  have ends := overruns.firstFrame
  rw [firstFrame, nextBuffered_envelope (by decide), if_neg (by decide)] at ends
  cases ends

/-- An empty end-of-stream frame, and a message behind it. -/
def overrun : Bytes := [2, 0, 0, 0, 0, 0, 0, 0, 0, 1, 7]

/-- The stream has ended when `FirstMessagePayload` returns a message. -/
theorem first_message_behind_end :
    FirstMessagePayload overrun = .ok [7] ∧ Delivers [⟨overrun, some .EOF⟩] overrun ∧
      (NewStreamDecoder [⟨overrun, some .EOF⟩]).Next.1 = .error .EOF :=
  ⟨by decide +kernel, ⟨by decide, by decide, by decide⟩, by decide +kernel⟩

end Agreement

end LongTrader.Sdk
