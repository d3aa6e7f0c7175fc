import LongTrader.Envelope
import LongTrader.Framing

/-! The stream decoder of the Go SDK: it reads whatever pieces a reader gives it into a
buffer and takes whole Connect frames off its front. -/

namespace LongTrader.Sdk

/-- `session.FlagEndOfStream`. -/
def FlagEndOfStream : UInt8 := 0x02

/-- `session.EnvelopeHeaderSize`. -/
def EnvelopeHeaderSize : Nat := 5

/-- `session.MaxFrameLength`. -/
def MaxFrameLength : Nat := 64 * 2 ^ 20

/-- `session.Envelope`. -/
def Envelope (payload : Bytes) (flags : UInt8) : Bytes := flags :: toBeBytes payload.length ++ payload

/-- The errors of `StreamDecoder.Next`. -/
inductive StreamError where
  | EOF
  | truncatedFrame
  | frameTooLarge (length : Nat)
  deriving DecidableEq, Repr

/-- Why a buffer holds the end of a stream. -/
inductive Final where
  | endOfStream (payload : Bytes)
  | tooLarge (length : Nat)
  deriving DecidableEq, Repr

/-- `StreamDecoder.nextBuffered`: what the bytes between `off` and `end` hold. -/
def nextBuffered (avail : Bytes) : Framing.Step UInt8 Bytes Final :=
  match avail with
  | flags :: first :: second :: third :: fourth :: _ =>
    let length := fromBeBytes first second third fourth
    if MaxFrameLength < length then .stop (.tooLarge length)
    else if avail.length < EnvelopeHeaderSize + length then .incomplete
    else
      let payload := (avail.drop EnvelopeHeaderSize).take length
      if flags &&& FlagEndOfStream != 0 then .stop (.endOfStream payload)
      else .item payload (avail.drop (EnvelopeHeaderSize + length))
  | _ => .incomplete

/-- What one call of `Read` returns: the bytes it wrote and its error. -/
inductive ReadError where
  | EOF
  | failed
  deriving DecidableEq, Repr

structure Read where
  data : Bytes
  err : Option ReadError
  deriving DecidableEq, Repr

/-- `session.StreamDecoder`. The reader is what it has still to return, `(0, io.EOF)` from
then on; the bytes that are buffered are `buf[off:end]`. -/
structure StreamDecoder where
  r : List Read
  avail : Bytes
  done : Bool
  eos : Bytes
  deriving DecidableEq, Repr

/-- `session.NewStreamDecoder`. -/
def NewStreamDecoder (r : List Read) : StreamDecoder := ⟨r, [], false, []⟩

/-- `StreamDecoder.Next`. -/
def StreamDecoder.Next (d : StreamDecoder) : Except StreamError Bytes × StreamDecoder :=
  if d.done then (.error .EOF, d)
  else match nextBuffered d.avail with
    | .item payload rest => (.ok payload, { d with avail := rest })
    | .stop (.endOfStream payload) => (.error .EOF, { d with done := true, eos := payload })
    | .stop (.tooLarge length) => (.error (.frameTooLarge length), d)
    | .incomplete => match _ : d.r with
      | [] => if d.avail = [] then (.error .EOF, { d with done := true }) else (.error .truncatedFrame, d)
      | read :: rest =>
        if read.data ≠ [] then StreamDecoder.Next { d with r := rest, avail := d.avail ++ read.data }
        else
          let err := read.err.getD .EOF
          if err = .EOF ∧ d.avail = [] then (.error .EOF, { d with r := rest, done := true })
          else (.error .truncatedFrame, { d with r := rest })
termination_by d.r.length
decreasing_by simp [*]

section Frames

variable {avail : Bytes}

theorem nextBuffered_header (flags first second third fourth : UInt8) (tail : Bytes) :
    nextBuffered (flags :: first :: second :: third :: fourth :: tail) =
      let length := fromBeBytes first second third fourth
      if MaxFrameLength < length then .stop (.tooLarge length)
      else if tail.length < length then .incomplete
      else if flags &&& FlagEndOfStream != 0 then .stop (.endOfStream (tail.take length))
      else .item (tail.take length) (tail.drop length) := by
  have lengths : (flags :: first :: second :: third :: fourth :: tail).length <
      EnvelopeHeaderSize + fromBeBytes first second third fourth ↔
        tail.length < fromBeBytes first second third fourth := by
    simp only [List.length_cons, EnvelopeHeaderSize]
    omega
  have rest : (flags :: first :: second :: third :: fourth :: tail).drop
      (EnvelopeHeaderSize + fromBeBytes first second third fourth) =
        tail.drop (fromBeBytes first second third fourth) := by
    rw [← List.drop_drop]
    rfl
  unfold nextBuffered
  simp only [lengths, rest]
  rfl

/-- A buffer with something to report starts with a header. -/
theorem header_of_nextBuffered (found : nextBuffered avail ≠ .incomplete) :
    ∃ flags first second third fourth tail,
      avail = flags :: first :: second :: third :: fourth :: tail := by
  unfold nextBuffered at found
  split at found
  · exact ⟨_, _, _, _, _, _, rfl⟩
  · exact absurd rfl found

theorem nextBuffered_shorter {payload rest : Bytes} (found : nextBuffered avail = .item payload rest) :
    rest.length < avail.length := by
  obtain ⟨flags, first, second, third, fourth, tail, rfl⟩ :=
    header_of_nextBuffered (by rw [found]; nofun)
  rw [nextBuffered_header] at found
  dsimp only at found
  repeat' split at found
  all_goals cases found
  simp only [List.length_drop, List.length_cons]
  omega

theorem nextBuffered_stable (found : nextBuffered avail ≠ .incomplete) (more : Bytes) :
    nextBuffered (avail ++ more) = (nextBuffered avail).extend more := by
  obtain ⟨flags, first, second, third, fourth, tail, rfl⟩ := header_of_nextBuffered found
  simp only [List.cons_append, nextBuffered_header] at found ⊢
  by_cases large : MaxFrameLength < fromBeBytes first second third fourth
  · rw [if_pos large, if_pos large]
    rfl
  rw [if_neg large] at found
  rw [if_neg large, if_neg large]
  by_cases short : tail.length < fromBeBytes first second third fourth
  · rw [if_pos short] at found
    exact absurd rfl found
  have enough := Nat.le_of_not_lt short
  have longer : ¬ (tail ++ more).length < fromBeBytes first second third fourth := by
    rw [List.length_append]
    omega
  rw [if_neg longer, if_neg short, List.take_append_of_le_length enough,
    List.drop_append_of_le_length enough]
  split <;> rfl

/-- A whole frame at the front of a buffer is what `nextBuffered` finds there. -/
theorem nextBuffered_envelope {payload : Bytes} (small : payload.length ≤ MaxFrameLength) (flags : UInt8) (rest : Bytes) :
    nextBuffered (Envelope payload flags ++ rest) =
      if flags &&& FlagEndOfStream != 0 then .stop (.endOfStream payload) else .item payload rest := by
  have fits : payload.length < 2 ^ 32 := Nat.lt_of_le_of_lt small (by decide)
  have whole : ¬ (payload ++ rest).length < payload.length := by
    rw [List.length_append]
    omega
  unfold Envelope toBeBytes
  simp only [List.cons_append, List.nil_append]
  rw [nextBuffered_header, fromBeBytes_toBeBytes fits]
  dsimp only
  rw [if_neg (Nat.not_lt.mpr small), if_neg whole, List.take_left, List.drop_left]

theorem Envelope_length (payload : Bytes) (flags : UInt8) :
    (Envelope payload flags).length = EnvelopeHeaderSize + payload.length := by
  simp only [Envelope, toBeBytes, List.cons_append, List.nil_append, List.length_cons,
    EnvelopeHeaderSize]
  omega

/-- The frames of a Connect stream. -/
def frames : Framing.Format UInt8 Bytes Final :=
  ⟨nextBuffered, nextBuffered_shorter, nextBuffered_stable⟩

end Frames

section Next

variable {d : StreamDecoder} (fresh : d.done = false)

include fresh

theorem StreamDecoder.Next_item {payload rest : Bytes} (found : nextBuffered d.avail = .item payload rest) :
    d.Next = (.ok payload, { d with avail := rest }) := by
  rw [StreamDecoder.Next, fresh, if_neg Bool.false_ne_true, found]

theorem StreamDecoder.Next_endOfStream {payload : Bytes}
    (found : nextBuffered d.avail = .stop (.endOfStream payload)) :
    d.Next = (.error .EOF, { d with done := true, eos := payload }) := by
  rw [StreamDecoder.Next, fresh, if_neg Bool.false_ne_true, found]

theorem StreamDecoder.Next_tooLarge {length : Nat}
    (found : nextBuffered d.avail = .stop (.tooLarge length)) :
    d.Next = (.error (.frameTooLarge length), d) := by
  rw [StreamDecoder.Next, fresh, if_neg Bool.false_ne_true, found]

variable (found : nextBuffered d.avail = .incomplete)

include found

theorem StreamDecoder.Next_exhausted (none_left : d.r = []) :
    d.Next = if d.avail = [] then (.error .EOF, { d with done := true })
      else (.error .truncatedFrame, d) := by
  rw [StreamDecoder.Next, fresh, if_neg Bool.false_ne_true, found]
  dsimp only
  split
  · rfl
  · simp_all

theorem StreamDecoder.Next_read {read : Read} {rest : List Read} (reads : d.r = read :: rest)
    (some_data : read.data ≠ []) :
    d.Next = StreamDecoder.Next { d with r := rest, avail := d.avail ++ read.data } := by
  conv_lhs => rw [StreamDecoder.Next, fresh, if_neg Bool.false_ne_true, found]
  dsimp only
  split
  · simp_all
  · rename_i again
    rw [reads] at again
    obtain ⟨rfl, rfl⟩ := List.cons.inj again
    rw [if_pos some_data, fresh]

theorem StreamDecoder.Next_no_data {read : Read} {rest : List Read} (reads : d.r = read :: rest)
    (no_data : read.data = []) :
    d.Next = if read.err.getD .EOF = .EOF ∧ d.avail = [] then
        (.error .EOF, { d with r := rest, done := true })
      else (.error .truncatedFrame, { d with r := rest }) := by
  rw [StreamDecoder.Next, fresh, if_neg Bool.false_ne_true, found]
  dsimp only
  split
  · simp_all
  · rename_i again
    rw [reads] at again
    obtain ⟨rfl, rfl⟩ := List.cons.inj again
    rw [if_neg (not_not.mpr no_data)]

end Next

section Draining

/-- What the next turn of a decoder's loop comes to. -/
inductive StreamDecoder.Turn (d : StreamDecoder) : Prop where
  | item (payload rest : Bytes) (found : nextBuffered d.avail = .item payload rest)
  | endOfStream (payload : Bytes) (found : nextBuffered d.avail = .stop (.endOfStream payload))
  | tooLarge (length : Nat) (found : nextBuffered d.avail = .stop (.tooLarge length))
  | exhausted (found : nextBuffered d.avail = .incomplete) (none_left : d.r = [])
  | read (read : Read) (rest : List Read) (found : nextBuffered d.avail = .incomplete)
      (reads : d.r = read :: rest) (some_data : read.data ≠ [])
  | noData (read : Read) (rest : List Read) (found : nextBuffered d.avail = .incomplete)
      (reads : d.r = read :: rest) (no_data : read.data = [])

theorem StreamDecoder.turn (d : StreamDecoder) : d.Turn := by
  cases found : nextBuffered d.avail with
  | item payload rest => exact .item payload rest found
  | stop reason =>
    cases reason with
    | endOfStream payload => exact .endOfStream payload found
    | tooLarge length => exact .tooLarge length found
  | incomplete =>
    cases reads : d.r with
    | nil => exact .exhausted found reads
    | cons read rest =>
      by_cases no_data : read.data = []
      · exact .noData read rest found reads no_data
      · exact .read read rest found reads no_data

/-- The bytes that a decoder has still to decode. -/
def StreamDecoder.remaining (d : StreamDecoder) : Nat :=
  d.avail.length + (d.r.map fun read => read.data.length).sum

theorem StreamDecoder.remaining_read {d : StreamDecoder} {read : Read} {rest : List Read}
    (reads : d.r = read :: rest) :
    StreamDecoder.remaining { d with r := rest, avail := d.avail ++ read.data } = d.remaining := by
  simp only [remaining, reads, List.length_append, List.map_cons, List.sum_cons]
  omega

/-- Every payload takes bytes off what remains. -/
theorem StreamDecoder.Next_remaining {d after : StreamDecoder} {payload : Bytes}
    (next : d.Next = (.ok payload, after)) : after.remaining < d.remaining := by
  have fresh : d.done = false := by
    cases done : d.done with
    | false => rfl
    | true =>
      rw [StreamDecoder.Next, done, if_pos rfl] at next
      cases next
  induction size : d.r.length using Nat.strongRecOn generalizing d with
  | ind bound ih =>
    cases d.turn with
    | item value rest found =>
      rw [StreamDecoder.Next_item fresh found] at next
      cases next
      exact Nat.add_lt_add_right (nextBuffered_shorter found) _
    | endOfStream eos found =>
      rw [StreamDecoder.Next_endOfStream fresh found] at next
      cases next
    | tooLarge length found =>
      rw [StreamDecoder.Next_tooLarge fresh found] at next
      cases next
    | exhausted found none_left =>
      rw [StreamDecoder.Next_exhausted fresh found none_left] at next
      split at next
      · cases next
      · cases next
    | read read rest found reads some_data =>
      rw [StreamDecoder.Next_read fresh found reads some_data] at next
      have shorter : rest.length < bound := by
        rw [← size, reads]
        exact Nat.lt_succ_self _
      have later := ih rest.length shorter next fresh rfl
      rwa [StreamDecoder.remaining_read reads] at later
    | noData read rest found reads no_data =>
      rw [StreamDecoder.Next_no_data fresh found reads no_data] at next
      split at next
      · cases next
      · cases next

/-- The loop of a consumer: the payloads up to the first error, that error, and the
payload of the end-of-stream frame. -/
def StreamDecoder.drain (d : StreamDecoder) : List Bytes × StreamError × Bytes :=
  match _ : d.Next with
  | (.ok payload, after) =>
    let tail := after.drain
    (payload :: tail.1, tail.2)
  | (.error error, after) => ([], error, after.eos)
termination_by d.remaining
decreasing_by exact StreamDecoder.Next_remaining ‹_›

variable {d after : StreamDecoder}

theorem StreamDecoder.drain_ok {payload : Bytes} (next : d.Next = (.ok payload, after)) :
    d.drain = (payload :: after.drain.1, after.drain.2) := by
  rw [StreamDecoder.drain]
  split
  · rename_i again
    rw [next] at again
    cases again
    rfl
  · rename_i again
    rw [next] at again
    cases again

theorem StreamDecoder.drain_error {error : StreamError} (next : d.Next = (.error error, after)) :
    d.drain = ([], error, after.eos) := by
  rw [StreamDecoder.drain]
  split
  · rename_i again
    rw [next] at again
    cases again
  · rename_i again
    rw [next] at again
    cases again
    rfl

theorem StreamDecoder.drain_congr {other : StreamDecoder} (same : d.Next = other.Next) :
    d.drain = other.drain := by
  cases next : d.Next with
  | mk result after =>
    cases result with
    | ok payload =>
      rw [StreamDecoder.drain_ok next]
      exact (StreamDecoder.drain_ok (same ▸ next)).symm
    | error error =>
      rw [StreamDecoder.drain_error next]
      exact (StreamDecoder.drain_error (same ▸ next)).symm

/-- The bytes that come before the first read without data: all that a decoder hears. -/
def heard (r : List Read) : Bytes := ((r.takeWhile fun read => read.data ≠ []).map Read.data).flatten

/-- The bytes that come after it. -/
def unheard (r : List Read) : Bytes := ((r.dropWhile fun read => read.data ≠ []).map Read.data).flatten

/-- The stream that a reader returns. -/
def streamOf (r : List Read) : Bytes := (r.map Read.data).flatten

theorem streamOf_eq (r : List Read) : streamOf r = heard r ++ unheard r := by
  rw [heard, unheard, ← List.flatten_append, ← List.map_append, List.takeWhile_append_dropWhile]
  rfl

theorem heard_cons_of_data {read : Read} (some_data : read.data ≠ []) (rest : List Read) :
    heard (read :: rest) = read.data ++ heard rest := by
  simp [heard, some_data]

theorem heard_cons_of_no_data {read : Read} (no_data : read.data = []) (rest : List Read) :
    heard (read :: rest) = [] := by
  simp [heard, no_data]

/-- How a decoder reports the end of a stream. -/
def report : Framing.End UInt8 Final → StreamError × Bytes
  | .stopped (.endOfStream payload) => (.EOF, payload)
  | .stopped (.tooLarge length) => (.frameTooLarge length, [])
  | .left rest => (if rest = [] then .EOF else .truncatedFrame, [])

/-- What the first read without data says; a reader with nothing left says that the file
has ended, and so does `(0, nil)`. -/
def silence (r : List Read) : ReadError :=
  ((r.find? fun read => read.data = []).bind Read.err).getD .EOF

theorem silence_cons_of_data {read : Read} (some_data : read.data ≠ []) (rest : List Read) :
    silence (read :: rest) = silence rest := by
  simp [silence, some_data]

theorem silence_cons_of_no_data {read : Read} (no_data : read.data = []) (rest : List Read) :
    silence (read :: rest) = read.err.getD .EOF := by
  simp [silence, no_data]

/-- How a decoder reports the end of a stream whose reader falls silent. -/
def reportAs (said : ReadError) : Framing.End UInt8 Final → StreamError × Bytes
  | .stopped reason => report (.stopped reason)
  | .left rest => (if said = .EOF ∧ rest = [] then .EOF else .truncatedFrame, [])

/-- A decoder yields the frames of what it has buffered and of what it hears. -/
theorem StreamDecoder.drain_heard (fresh : d.done = false) (unended : d.eos = []) :
    d.drain = ((Framing.decode frames (d.avail ++ heard d.r)).1,
      reportAs (silence d.r) (Framing.decode frames (d.avail ++ heard d.r)).2) := by
  induction size : d.remaining + d.r.length using Nat.strongRecOn generalizing d with
  | ind bound ih =>
    cases d.turn with
    | item payload rest found =>
      have next := StreamDecoder.Next_item fresh found
      have smaller := StreamDecoder.Next_remaining next
      have later := @ih _ (by rw [← size]; exact Nat.add_lt_add_right smaller _)
        { d with avail := rest } fresh unended rfl
      have front : frames.step (d.avail ++ heard d.r) = .item payload (rest ++ heard d.r) :=
        Framing.Format.item_append found _
      rw [StreamDecoder.drain_ok next, later, Framing.decode_item front]
    | endOfStream payload found =>
      have front : frames.step (d.avail ++ heard d.r) = .stop (.endOfStream payload) :=
        Framing.Format.stop_append found _
      rw [StreamDecoder.drain_error (StreamDecoder.Next_endOfStream fresh found),
        Framing.decode_stop front]
      rfl
    | tooLarge length found =>
      have front : frames.step (d.avail ++ heard d.r) = .stop (.tooLarge length) :=
        Framing.Format.stop_append found _
      rw [StreamDecoder.drain_error (StreamDecoder.Next_tooLarge fresh found),
        Framing.decode_stop front, unended]
      rfl
    | exhausted found none_left =>
      have quiet : heard d.r = [] := by rw [none_left]; rfl
      have said : silence d.r = .EOF := by rw [none_left]; rfl
      have next := StreamDecoder.Next_exhausted fresh found none_left
      rw [quiet, said, List.append_nil, Framing.decode_incomplete (show frames.step _ = _ from found)]
      split at next
      all_goals
        rename_i ends
        rw [StreamDecoder.drain_error next]
        simp [reportAs, ends, unended]
    | read read rest found reads some_data =>
      have shorter : rest.length < d.r.length := by
        rw [reads]
        exact Nat.lt_succ_self _
      have same := StreamDecoder.remaining_read reads
      have later := @ih _ (by rw [← size, ← same]; exact Nat.add_lt_add_left shorter _)
        { d with r := rest, avail := d.avail ++ read.data } fresh unended rfl
      rw [StreamDecoder.drain_congr (StreamDecoder.Next_read fresh found reads some_data), later,
        reads, heard_cons_of_data some_data, silence_cons_of_data some_data, ← List.append_assoc]
    | noData read rest found reads no_data =>
      have quiet : heard d.r = [] := by rw [reads, heard_cons_of_no_data no_data]
      have said : silence d.r = read.err.getD .EOF := by rw [reads, silence_cons_of_no_data no_data]
      have next := StreamDecoder.Next_no_data fresh found reads no_data
      rw [quiet, said, List.append_nil, Framing.decode_incomplete (show frames.step _ = _ from found)]
      split at next
      all_goals
        rename_i ends
        rw [StreamDecoder.drain_error next]
        simp [reportAs, ends, unended]

theorem silence_of_unfailing {r : List Read} (unfailing : ∀ read ∈ r, read.err ≠ some .failed) :
    silence r = .EOF := by
  induction r with
  | nil => rfl
  | cons read rest ih =>
    by_cases no_data : read.data = []
    · have sound := unfailing read (List.mem_cons_self ..)
      rw [silence_cons_of_no_data no_data]
      rcases said : read.err with _ | (_ | _)
      · rfl
      · rfl
      · exact absurd said sound
    · rw [silence_cons_of_data no_data]
      exact ih fun other member => unfailing other (List.mem_cons_of_mem _ member)

/-- A reader that does not fail falls silent at the end of the file. -/
theorem StreamDecoder.drain_eq (fresh : d.done = false) (unended : d.eos = [])
    (unfailing : ∀ read ∈ d.r, read.err ≠ some .failed) :
    d.drain = ((Framing.decode frames (d.avail ++ heard d.r)).1,
      report (Framing.decode frames (d.avail ++ heard d.r)).2) := by
  rw [StreamDecoder.drain_heard fresh unended, silence_of_unfailing unfailing]
  cases (Framing.decode frames (d.avail ++ heard d.r)).2 with
  | stopped reason => rfl
  | left rest => simp [reportAs, report]

end Draining

/-- How a stream ended for its consumer. -/
inductive Terminal (ε : Type) where
  | clean
  | serverError (error : ε)
  | truncated
  | tooLarge (length : Nat)
  deriving DecidableEq, Repr

section Outcome

variable {ε : Type} (endStreamFrameError : Bytes → Option ε)

def terminal : StreamError × Bytes → Terminal ε
  | (.EOF, eos) => match endStreamFrameError eos with
    | none => .clean
    | some error => .serverError error
  | (.truncatedFrame, _) => .truncated
  | (.frameTooLarge length, _) => .tooLarge length

/-- The payloads that a consumer gets from a reader, and how the stream ends for it. -/
def outcome (r : List Read) : List Bytes × Terminal ε :=
  ((NewStreamDecoder r).drain.1, terminal endStreamFrameError (NewStreamDecoder r).drain.2)

/-- The bytes after the last whole frame, unless the stream has come to its end. -/
def leftOver (stream : Bytes) : Option Bytes :=
  match (Framing.decode frames stream).2 with
  | .left rest => some rest
  | .stopped _ => none

/-- What follows a stream makes no difference to what it means if it is cut off there. -/
def Undisturbed (stream more : Bytes) : Prop :=
  ∀ rest, leftOver stream = some rest →
    (rest = [] ∧ (more = [] ∨ ∃ payload, nextBuffered more = .stop (.endOfStream payload) ∧
      endStreamFrameError payload = none)) ∨
    (rest ≠ [] ∧ nextBuffered (rest ++ more) = .incomplete)

/-- What a whole stream means. -/
def meaning (stream : Bytes) : List Bytes × Terminal ε :=
  ((Framing.decode frames stream).1,
    terminal endStreamFrameError (report (Framing.decode frames stream).2))

theorem outcome_eq {r : List Read} (unfailing : ∀ read ∈ r, read.err ≠ some .failed) :
    outcome endStreamFrameError r = meaning endStreamFrameError (heard r) := by
  have drained := StreamDecoder.drain_eq (d := NewStreamDecoder r) rfl rfl unfailing
  rw [outcome, drained]
  rfl

theorem outcome_whole (stream : Bytes) :
    outcome endStreamFrameError [⟨stream, some .EOF⟩] = meaning endStreamFrameError stream := by
  rw [outcome_eq endStreamFrameError (by simp)]
  by_cases empty : stream = []
  · rw [empty]
    rfl
  · rw [heard_cons_of_data empty]
    simp [heard]

theorem terminal_left (empty : endStreamFrameError [] = none) (rest : Bytes) :
    terminal endStreamFrameError (report (.left rest)) = if rest = [] then .clean else .truncated := by
  by_cases ends : rest = []
  · simp [report, terminal, ends, empty]
  · simp [report, terminal, ends]

/-- Bytes behind a part of a frame change nothing just if they neither complete it nor,
behind no part of one, are more than a clean end. -/
theorem terminal_left_iff (empty : endStreamFrameError [] = none) (rest more : Bytes) :
    ((Framing.decode frames (rest ++ more)).1 = [] ∧
        terminal endStreamFrameError (report (.left rest)) =
          terminal endStreamFrameError (report (Framing.decode frames (rest ++ more)).2)) ↔
      (rest = [] ∧ (more = [] ∨ ∃ payload, nextBuffered more = .stop (.endOfStream payload) ∧
        endStreamFrameError payload = none)) ∨
      (rest ≠ [] ∧ nextBuffered (rest ++ more) = .incomplete) := by
  have nothing : nextBuffered [] = .incomplete := rfl
  rw [terminal_left endStreamFrameError empty]
  cases found : nextBuffered (rest ++ more) with
  | incomplete =>
    rw [Framing.decode_incomplete (show frames.step _ = _ from found),
      terminal_left endStreamFrameError empty]
    by_cases ends : rest = []
    · subst ends
      rw [List.nil_append] at found
      by_cases silent : more = []
      · simp [silent]
      · simp [silent, found]
    · simp [ends]
  | item payload tail =>
    rw [Framing.decode_item (show frames.step _ = _ from found)]
    by_cases ends : rest = []
    · subst ends
      rw [List.nil_append] at found
      have goesOn : more ≠ [] := by
        rintro rfl
        rw [nothing] at found
        cases found
      simp [goesOn, found]
    · simp [ends]
  | stop reason =>
    rw [Framing.decode_stop (show frames.step _ = _ from found)]
    by_cases ends : rest = []
    · subst ends
      rw [List.nil_append] at found
      have goesOn : more ≠ [] := by
        rintro rfl
        rw [nothing] at found
        cases found
      cases reason with
      | endOfStream payload =>
        cases refused : endStreamFrameError payload with
        | none => simp [report, terminal, refused, found]
        | some error => simp [report, terminal, refused, found, goesOn]
      | tooLarge length => simp [report, terminal, found, goesOn]
    · cases reason with
      | endOfStream payload =>
        cases refused : endStreamFrameError payload with
        | none => simp [report, terminal, refused, ends]
        | some error => simp [report, terminal, refused, ends]
      | tooLarge length => simp [report, terminal, ends]

theorem meaning_append_iff (empty : endStreamFrameError [] = none) (stream more : Bytes) :
    meaning endStreamFrameError stream = meaning endStreamFrameError (stream ++ more) ↔
      Undisturbed endStreamFrameError stream more := by
  cases decoded : Framing.decode frames stream with
  | mk items ends =>
    cases ends with
    | stopped reason =>
      have settled : leftOver stream = none := by rw [leftOver, decoded]
      have same := Framing.decode_append_stopped decoded more
      simp [meaning, decoded, same, Undisturbed, settled]
    | left rest =>
      have open_ : leftOver stream = some rest := by rw [leftOver, decoded]
      have behind := Framing.decode_append_left decoded more
      have unique : Undisturbed endStreamFrameError stream more ↔
          (rest = [] ∧ (more = [] ∨ ∃ payload, nextBuffered more = .stop (.endOfStream payload) ∧
            endStreamFrameError payload = none)) ∨
          (rest ≠ [] ∧ nextBuffered (rest ++ more) = .incomplete) := by
        simp [Undisturbed, open_]
      rw [unique, ← terminal_left_iff endStreamFrameError empty, meaning, meaning, decoded, behind,
        Prod.mk.injEq]
      simp

/-- A stream comes out of a decoder as it does when it is read at once just if nothing
that matters follows a read that returns no bytes and no error. -/
theorem stream_chunks_iff (empty : endStreamFrameError [] = none) {r : List Read}
    (unfailing : ∀ read ∈ r, read.err ≠ some .failed) :
    outcome endStreamFrameError r = outcome endStreamFrameError [⟨streamOf r, some .EOF⟩] ↔
      Undisturbed endStreamFrameError (heard r) (unheard r) := by
  rw [outcome_eq endStreamFrameError unfailing, outcome_whole, streamOf_eq]
  exact meaning_append_iff endStreamFrameError empty (heard r) (unheard r)

end Outcome

/-- A reader that splits a frame, and its end-of-stream frame with `{}` comes with the
end of the file. -/
def split : List Read :=
  [⟨[0, 0, 0], none⟩, ⟨[0, 2, 104], none⟩, ⟨[105, 2, 0, 0, 0, 2, 123, 125], some .EOF⟩]

theorem stream_chunks_iff_split :
    outcome (fun _ => (none : Option Unit)) split =
      outcome (fun _ => (none : Option Unit)) [⟨streamOf split, some .EOF⟩] := by
  refine (stream_chunks_iff (fun _ => none) rfl (by decide)).mpr ?_
  intro rest left
  have ended : leftOver (heard split) = none := by decide +kernel
  rw [ended] at left
  cases left

/-- A reader that has nothing to return at first. -/
def hesitant : List Read := [⟨[], none⟩, ⟨[0, 0, 0, 0, 2, 104, 105], none⟩]

/-- A read that returns nothing ends the stream, and the frame behind it is lost. -/
theorem stream_ends_at_empty_read :
    outcome (fun _ => (none : Option Unit)) hesitant = ([], .clean) ∧
      outcome (fun _ => (none : Option Unit)) [⟨streamOf hesitant, some .EOF⟩] =
        ([[104, 105]], .clean) := by
  decide +kernel

end LongTrader.Sdk
