import LongTrader.Sdk.Stream

/-! The readers of a Connect event stream in the Rust client and in the Python and TypeScript
SDKs. A reader gets the stream in chunks; a payload stands for the message that the generated
code decodes from it, if it can. -/

namespace LongTrader.Sdk

/-- How a stream ends for whoever reads it. -/
inductive Ended where
  | cleanly
  | inError
  deriving DecidableEq, Repr

section Readers

variable {ε : Type} (endOfStreamError : Bytes → Option ε) (parses : Bytes → Bool)

/-- How a reader takes an end-of-stream frame. -/
def endedBy (payload : Bytes) : Ended :=
  match endOfStreamError payload with
  | none => .cleanly
  | some _ => .inError

namespace Rust

/-- An item of the stream: a message, by its payload, or one of the two errors. -/
inductive Item (ε : Type) where
  | update (payload : Bytes)
  | rpc (error : ε)
  | decode

/-- One poll of the stream of `stream_updates`: what it yields, and the response and the buffer
it leaves. `none` is the end of the stream. -/
def poll (chunks : List Bytes) (buf : Bytes) : Option (Item ε × List Bytes × Bytes) :=
  match decodeEnvelopeResult buf with
  | .ok (flags, payload, consumed) =>
    let buf := buf.drop consumed
    if flags &&& FLAG_EOS != 0 then
      match endOfStreamError payload with
      | some error => some (.rpc error, chunks, buf)
      | none => none
    else some (if parses payload then .update payload else .decode, chunks, buf)
  | .error _ => match chunks with
    | [] => none
    | chunk :: rest => poll rest (buf ++ chunk)

theorem poll_shorter {chunks rest : List Bytes} {buf left : Bytes} {item : Item ε}
    (polled : poll endOfStreamError parses chunks buf = some (item, rest, left)) :
    (left ++ rest.flatten).length < (buf ++ chunks.flatten).length := by
  induction chunks generalizing buf with
  | nil =>
    unfold poll at polled
    split at polled
    · rename_i decoded
      have consumes := decodeEnvelope_consumed decoded
      dsimp only at polled
      repeat' split at polled
      all_goals cases polled
      all_goals simp only [List.length_append, List.length_drop]
      all_goals omega
    · cases polled
  | cons chunk chunks ih =>
    unfold poll at polled
    split at polled
    · rename_i decoded
      have consumes := decodeEnvelope_consumed decoded
      dsimp only at polled
      repeat' split at polled
      all_goals cases polled
      all_goals simp only [List.length_append, List.length_drop]
      all_goals omega
    · have shorter := ih polled
      rwa [List.append_assoc, ← List.flatten_cons] at shorter

/-- The items of the stream of `stream_updates`. -/
def streamUpdates (chunks : List Bytes) (buf : Bytes) : List (Item ε) :=
  match _ : poll endOfStreamError parses chunks buf with
  | none => []
  | some (item, rest, left) => item :: streamUpdates rest left
termination_by (buf ++ chunks.flatten).length
decreasing_by exact poll_shorter endOfStreamError parses ‹_›

/-- The payloads that are delivered. -/
def payloads (items : List (Item ε)) : List Bytes :=
  items.filterMap fun item => match item with
    | .update payload => some payload
    | _ => none

def ended (items : List (Item ε)) : Ended :=
  if items.all fun item => match item with
    | .update _ => true
    | _ => false
  then .cleanly else .inError

end Rust

/-- Where a pass of the inner loop leaves an iterator. -/
inductive Pass (σ : Type) where
  | ends (ended : Ended)
  | waits (prev : σ) (buf : Bytes)

variable (sequence : Bytes → Nat)

/-- The inner loop of the Python and TypeScript iterators, which take the frames of a buffer as
the Go decoder does: what they yield, `none` for a gap, and where it leaves them. -/
def framePass {σ : Type} (gap : σ → Nat → Bool × σ) (prev : σ) (buf : Bytes) : List (Option Bytes) × Pass σ :=
  match _ : nextBuffered buf with
  | .incomplete => ([], .waits prev buf)
  | .stop (.tooLarge _) => ([], .ends .inError)
  | .stop (.endOfStream payload) => ([], .ends (endedBy endOfStreamError payload))
  | .item payload rest =>
    if parses payload then
      let (jumped, prev) := gap prev (sequence payload)
      let tail := framePass gap prev rest
      ((if jumped then [none] else []) ++ some payload :: tail.1, tail.2)
    else ([], .ends .inError)
termination_by buf.length
decreasing_by exact nextBuffered_shorter ‹_›

namespace Python

/-- The gap check of `_iter_events`, with the last sequence seen; `aware` is whether it was given
an `event_attr`. -/
def gap (aware : Bool) (prev : Option Nat) (seq : Nat) : Bool × Option Nat :=
  if aware then
    (match prev with
      | none => false
      | some prev => seq ≠ 0 ∧ prev ≠ 0 ∧ seq ≠ prev + 1,
     if seq ≠ 0 then some seq else prev)
  else (false, prev)

/-- `_iter_events`. -/
def iterEvents (aware : Bool) (prev : Option Nat) (buf : Bytes) :
    List Bytes → List (Option Bytes) × Ended
  | [] => ([], .cleanly)
  | chunk :: rest =>
    match framePass endOfStreamError parses sequence (gap aware) prev (buf ++ chunk) with
    | (out, .ends ended) => (out, ended)
    | (out, .waits prev buf) =>
      let tail := iterEvents aware prev buf rest
      (out ++ tail.1, tail.2)

end Python

namespace TypeScript

/-- The gap check of `iterEvents`. -/
def gap (gapAware : Bool) (prev : Nat) (seq : Nat) : Bool × Nat :=
  if gapAware then if 0 < seq then (0 < prev ∧ seq ≠ prev + 1, seq) else (false, prev)
  else (false, prev)

/-- `iterEvents`. The read that reports the end of the body is followed by one more pass. -/
def iterEvents (gapAware : Bool) (prev : Nat) (buf : Bytes) :
    List Bytes → List (Option Bytes) × Ended
  | [] => match framePass endOfStreamError parses sequence (gap gapAware) prev buf with
    | (out, .ends ended) => (out, ended)
    | (out, .waits _ _) => (out, .cleanly)
  | chunk :: rest =>
    match framePass endOfStreamError parses sequence (gap gapAware) prev (buf ++ chunk) with
    | (out, .ends ended) => (out, ended)
    | (out, .waits prev buf) =>
      let tail := iterEvents gapAware prev buf rest
      (out ++ tail.1, tail.2)

end TypeScript

end Readers

end LongTrader.Sdk
