import LongTrader.Sdk.Readers
import Mathlib.Data.List.TakeWhile

/-! One stream in four readers: the Go decoder, the Rust client and the Python and TypeScript
iterators. Each of them is first shown to go by the frames of the whole stream, and then they are
compared frame by frame. -/

namespace LongTrader.Sdk

/-- The envelope at the front of a buffer, whatever it is. -/
def nextEnvelope (buf : Bytes) : Framing.Step UInt8 (UInt8 × Bytes) Empty :=
  match decodeEnvelopeResult buf with
  | .ok (flags, payload, consumed) => .item (flags, payload) (buf.drop consumed)
  | .error _ => .incomplete

section Envelopes

variable {buf payload rest : Bytes} {flags : UInt8} {consumed : Nat}

theorem nextEnvelope_item {frame : UInt8 × Bytes} (found : nextEnvelope buf = .item frame rest) :
    ∃ consumed, decodeEnvelopeResult buf = .ok (frame.1, frame.2, consumed) ∧ rest = buf.drop consumed := by
  unfold nextEnvelope at found
  split at found
  · rename_i decoded
    cases found
    exact ⟨_, decoded, rfl⟩
  · cases found

theorem nextEnvelope_incomplete (found : nextEnvelope buf = .incomplete) :
    ∃ error, decodeEnvelopeResult buf = .error error := by
  unfold nextEnvelope at found
  split at found
  · cases found
  · exact ⟨_, by assumption⟩

theorem nextEnvelope_shorter {frame : UInt8 × Bytes} (found : nextEnvelope buf = .item frame rest) :
    rest.length < buf.length := by
  obtain ⟨consumed, decoded, rfl⟩ := nextEnvelope_item found
  have consumes := decodeEnvelope_consumed decoded
  rw [List.length_drop]
  omega

theorem nextEnvelope_stable (found : nextEnvelope buf ≠ .incomplete) (more : Bytes) :
    nextEnvelope (buf ++ more) = (nextEnvelope buf).extend more := by
  cases step : nextEnvelope buf with
  | incomplete => exact absurd step found
  | stop never => cases never
  | item frame rest =>
    obtain ⟨consumed, decoded, rfl⟩ := nextEnvelope_item step
    have again : decodeEnvelopeResult (buf ++ more) = _ := decodeEnvelope_append decoded more
    have inside := (decodeEnvelope_consumed decoded).2
    rw [nextEnvelope, again, Framing.Step.extend]
    dsimp only
    rw [List.drop_append_of_le_length inside]

theorem nextEnvelope_left {more : Bytes} (found : nextEnvelope (buf ++ more) = .incomplete) :
    nextEnvelope buf = .incomplete := by
  cases step : nextEnvelope buf with
  | incomplete => rfl
  | stop never => cases never
  | item frame rest =>
    rw [nextEnvelope_stable (by rw [step]; nofun), step] at found
    cases found

/-- The envelopes of a stream, with no limit on their length. -/
def envelopes : Framing.Format UInt8 (UInt8 × Bytes) Empty :=
  ⟨nextEnvelope, nextEnvelope_shorter, nextEnvelope_stable⟩

/-- The frames of a stream, those behind an end-of-stream frame included. -/
def framesOf (stream : Bytes) : List (UInt8 × Bytes) := (Framing.decode envelopes stream).1

/-- The bytes behind the last whole frame. -/
def tailOf (stream : Bytes) : Bytes :=
  match (Framing.decode envelopes stream).2 with
  | .left rest => rest
  | .stopped never => nomatch never

theorem framesOf_incomplete (found : nextEnvelope buf = .incomplete) :
    framesOf buf = [] ∧ tailOf buf = buf := by
  unfold framesOf tailOf
  rw [Framing.decode_incomplete (show envelopes.step buf = _ from found)]
  exact ⟨rfl, rfl⟩

theorem framesOf_item {frame : UInt8 × Bytes} (found : nextEnvelope buf = .item frame rest) :
    framesOf buf = frame :: framesOf rest ∧ tailOf buf = tailOf rest := by
  unfold framesOf tailOf
  rw [Framing.decode_item (show envelopes.step buf = _ from found)]
  exact ⟨rfl, rfl⟩

/-- Induction on the frames of a stream. -/
theorem frames_induction {motive : Bytes → Prop}
    (incomplete : ∀ buf, nextEnvelope buf = .incomplete → motive buf)
    (item : ∀ buf frame rest, nextEnvelope buf = .item frame rest → motive rest → motive buf)
    (stream : Bytes) : motive stream := by
  induction stream using Framing.decode.induct envelopes with
  | case1 buf found => exact incomplete buf found
  | case2 buf never found => cases never
  | case3 buf frame rest found ih => exact item buf frame rest found ih

/-- Whether a frame ends the stream. -/
def isEnd (flags : UInt8) : Bool := flags &&& FLAG_EOS != 0

/-- A whole frame in a reader that limits the length. -/
theorem nextBuffered_of_item {frame : UInt8 × Bytes} (found : nextEnvelope buf = .item frame rest) :
    nextBuffered buf = if MaxFrameLength < frame.2.length then .stop (.tooLarge frame.2.length)
      else if isEnd frame.1 then .stop (.endOfStream frame.2) else .item frame.2 rest := by
  obtain ⟨consumed, decoded, rfl⟩ := nextEnvelope_item found
  obtain ⟨first, second, third, fourth, tail, rfl, size, rfl⟩ := decodeEnvelope_ok decoded
  have enough : ¬ (frame.2 ++ tail).length < frame.2.length := by
    rw [List.length_append]
    omega
  rw [nextBuffered_header]
  dsimp only
  rw [← size, if_neg enough, List.take_left, List.drop_left, Nat.add_comm 5]
  simp only [List.drop_succ_cons, List.drop_left]
  rfl

theorem nextBuffered_of_incomplete (found : nextEnvelope buf = .incomplete) :
    nextBuffered buf = .incomplete ∨
      buf ≠ [] ∧ ∃ length, nextBuffered buf = .stop (.tooLarge length) := by
  obtain ⟨error, failed⟩ := nextEnvelope_incomplete found
  unfold decodeEnvelopeResult at failed
  split at failed
  · rename_i flags first second third fourth tail
    dsimp only at failed
    split at failed
    · rename_i short
      rw [nextBuffered_header]
      dsimp only
      by_cases large : MaxFrameLength < fromBeBytes first second third fourth
      · exact .inr ⟨List.cons_ne_nil _ _, _, if_pos large⟩
      · left
        rw [if_neg large, if_pos]
        simp only [List.length_cons] at short
        omega
    · cases failed
  · rename_i few
    left
    unfold nextBuffered
    split
    · exact absurd rfl (few _ _ _ _ _ _)
    · rfl

end Envelopes

section Passes

variable {ε σ : Type} (endOfStreamError : Bytes → Option ε) (parses : Bytes → Bool)
  (sequence : Bytes → Nat) (gap : σ → Nat → Bool × σ)

/-- What an iterator has yielded when the body is at its end. -/
def finish (result : List (Option Bytes) × Pass σ) : List (Option Bytes) × Ended :=
  (result.1, match result.2 with
    | .ends ended => ended
    | .waits _ _ => .cleanly)

/-- A pass goes on where the last one has stopped. -/
def resume (result : List (Option Bytes) × Pass σ) (more : Bytes) : List (Option Bytes) × Pass σ :=
  match result.2 with
  | .ends ended => (result.1, .ends ended)
  | .waits prev rest =>
    let tail := framePass endOfStreamError parses sequence gap prev (rest ++ more)
    (result.1 ++ tail.1, tail.2)

variable {buf : Bytes}

/-- How an iterator takes a buffer that it reads no further. -/
def stoppedBy : Final → Ended
  | .tooLarge _ => .inError
  | .endOfStream payload => endedBy endOfStreamError payload

theorem framePass_incomplete (prev : σ) (found : nextBuffered buf = .incomplete) :
    framePass endOfStreamError parses sequence gap prev buf = ([], .waits prev buf) := by
  rw [framePass]
  split <;> simp_all

theorem framePass_stop {reason : Final} (prev : σ) (found : nextBuffered buf = .stop reason) :
    framePass endOfStreamError parses sequence gap prev buf =
      ([], .ends (stoppedBy endOfStreamError reason)) := by
  rw [framePass]
  cases reason with
  | tooLarge length => split <;> simp_all [stoppedBy]
  | endOfStream payload => split <;> simp_all [stoppedBy]

theorem framePass_item {payload rest : Bytes} (prev : σ) (found : nextBuffered buf = .item payload rest)
    (parsed : parses payload = true) :
    framePass endOfStreamError parses sequence gap prev buf =
      ((if (gap prev (sequence payload)).1 then [none] else []) ++ some payload ::
          (framePass endOfStreamError parses sequence gap (gap prev (sequence payload)).2 rest).1,
        (framePass endOfStreamError parses sequence gap (gap prev (sequence payload)).2 rest).2) := by
  rw [framePass]
  split <;> simp_all

theorem framePass_unparsed {payload rest : Bytes} (prev : σ)
    (found : nextBuffered buf = .item payload rest) (unparsed : parses payload = false) :
    framePass endOfStreamError parses sequence gap prev buf = ([], .ends .inError) := by
  rw [framePass]
  split <;> simp_all

/-- Induction on the frames that a pass takes. -/
theorem passes_induction {motive : σ → Bytes → Prop}
    (incomplete : ∀ prev buf, nextBuffered buf = .incomplete → motive prev buf)
    (stop : ∀ prev buf reason, nextBuffered buf = .stop reason → motive prev buf)
    (unparsed : ∀ prev buf payload rest, nextBuffered buf = .item payload rest →
      parses payload = false → motive prev buf)
    (item : ∀ prev buf payload rest, nextBuffered buf = .item payload rest → parses payload = true →
      motive (gap prev (sequence payload)).2 rest → motive prev buf)
    (prev : σ) (buf : Bytes) : motive prev buf := by
  induction prev, buf using framePass.induct (fun _ => (none : Option Unit)) parses sequence gap with
  | case1 prev buf found => exact incomplete prev buf found
  | case2 prev buf length found => exact stop prev buf _ found
  | case3 prev buf payload found => exact stop prev buf _ found
  | case4 prev buf payload rest found parsed jumped next gapped ih =>
    exact item prev buf payload rest found parsed (by rw [gapped]; exact ih)
  | case5 prev buf payload rest found unparsed' =>
    exact unparsed prev buf payload rest found (by simpa using unparsed')

/-- A pass over more bytes goes on where the pass over the first of them has stopped. -/
theorem framePass_append (prev : σ) (buf more : Bytes) :
    framePass endOfStreamError parses sequence gap prev (buf ++ more) =
      resume endOfStreamError parses sequence gap
        (framePass endOfStreamError parses sequence gap prev buf) more := by
  induction prev, buf using passes_induction parses sequence gap with
  | incomplete prev buf found =>
    rw [framePass_incomplete _ _ _ _ prev found]
    rfl
  | stop prev buf reason found =>
    have longer : frames.step (buf ++ more) = .stop reason := Framing.Format.stop_append found more
    rw [framePass_stop _ _ _ _ prev found, framePass_stop _ _ _ _ prev longer]
    rfl
  | unparsed prev buf payload rest found unparsed =>
    have longer : frames.step (buf ++ more) = .item payload (rest ++ more) :=
      Framing.Format.item_append found more
    rw [framePass_unparsed _ _ _ _ prev found unparsed, framePass_unparsed _ _ _ _ prev longer unparsed]
    rfl
  | item prev buf payload rest found parsed ih =>
    have longer : frames.step (buf ++ more) = .item payload (rest ++ more) :=
      Framing.Format.item_append found more
    rw [framePass_item _ _ _ _ prev found parsed, framePass_item _ _ _ _ prev longer parsed, ih]
    cases framePass endOfStreamError parses sequence gap (gap prev (sequence payload)).2 rest with
    | mk out pass =>
      cases pass with
      | ends ended => rfl
      | waits prev left => simp [resume]

/-- What a pass leaves is no whole frame. -/
theorem framePass_waits {out : List (Option Bytes)} {prev next : σ} {left : Bytes}
    (passed : framePass endOfStreamError parses sequence gap prev buf = (out, .waits next left)) :
    nextBuffered left = .incomplete := by
  induction prev, buf using passes_induction parses sequence gap generalizing out with
  | incomplete prev buf found =>
    rw [framePass_incomplete _ _ _ _ prev found] at passed
    cases passed
    exact found
  | stop prev buf reason found =>
    rw [framePass_stop _ _ _ _ prev found] at passed
    cases passed
  | unparsed prev buf payload rest found unparsed =>
    rw [framePass_unparsed _ _ _ _ prev found unparsed] at passed
    cases passed
  | item prev buf payload rest found parsed ih =>
    rw [framePass_item _ _ _ _ prev found parsed] at passed
    exact ih (Prod.ext rfl (Prod.mk.inj passed).2)

/-- The Python iterator makes one pass over the whole stream, in whatever chunks it comes. -/
theorem Python.iterEvents_eq (aware : Bool) (prev : Option Nat) (chunks : List Bytes)
    (open_ : nextBuffered buf = .incomplete) :
    iterEvents endOfStreamError parses sequence aware prev buf chunks =
      finish (framePass endOfStreamError parses sequence (Python.gap aware) prev (buf ++ chunks.flatten)) := by
  induction chunks generalizing prev buf with
  | nil =>
    rw [List.flatten_nil, List.append_nil, framePass_incomplete _ _ _ _ prev open_]
    rfl
  | cons chunk rest ih =>
    rw [iterEvents, List.flatten_cons, ← List.append_assoc,
      framePass_append _ _ _ _ prev (buf ++ chunk) rest.flatten]
    cases passed : framePass endOfStreamError parses sequence (Python.gap aware) prev (buf ++ chunk) with
    | mk out pass =>
      cases pass with
      | ends ended => rfl
      | waits next left =>
        dsimp only
        rw [ih next (framePass_waits _ _ _ _ passed)]
        rfl

/-- So does the TypeScript iterator. -/
theorem TypeScript.iterEvents_eq (gapAware : Bool) (prev : Nat) (buf : Bytes) (chunks : List Bytes) :
    iterEvents endOfStreamError parses sequence gapAware prev buf chunks =
      finish (framePass endOfStreamError parses sequence (TypeScript.gap gapAware) prev
        (buf ++ chunks.flatten)) := by
  induction chunks generalizing prev buf with
  | nil =>
    rw [iterEvents, List.flatten_nil, List.append_nil]
    cases framePass endOfStreamError parses sequence (TypeScript.gap gapAware) prev buf with
    | mk out pass => cases pass <;> rfl
  | cons chunk rest ih =>
    rw [iterEvents, List.flatten_cons, ← List.append_assoc,
      framePass_append _ _ _ _ prev (buf ++ chunk) rest.flatten]
    cases framePass endOfStreamError parses sequence (TypeScript.gap gapAware) prev (buf ++ chunk) with
    | mk out pass =>
      cases pass with
      | ends ended => rfl
      | waits next left =>
        dsimp only
        rw [ih next left]
        rfl

end Passes

section Updates

variable {ε : Type} (endOfStreamError : Bytes → Option ε) (parses : Bytes → Bool)

namespace Rust

/-- What a frame is in the stream of the Rust client; `none` for the end of the stream. -/
def itemOf (frame : UInt8 × Bytes) : Option (Item ε) :=
  if isEnd frame.1 then (endOfStreamError frame.2).map .rpc
  else some (if parses frame.2 then .update frame.2 else .decode)

def itemsOf : List (UInt8 × Bytes) → List (Item ε)
  | [] => []
  | frame :: more => match itemOf endOfStreamError parses frame with
    | none => []
    | some item => item :: itemsOf more

variable {chunks : List Bytes} {buf : Bytes}

theorem poll_front {frame : UInt8 × Bytes} {rest : Bytes} (chunks : List Bytes)
    (found : nextEnvelope buf = .item frame rest) :
    poll endOfStreamError parses chunks buf =
      (itemOf endOfStreamError parses frame).map fun item => (item, chunks, rest) := by
  obtain ⟨consumed, decoded, rfl⟩ := nextEnvelope_item found
  rw [poll.eq_def, decoded]
  dsimp only
  by_cases ends : isEnd frame.1 = true
  · rw [itemOf, if_pos ends, if_pos (show (frame.1 &&& FLAG_EOS != 0) = true from ends)]
    cases endOfStreamError frame.2 <;> rfl
  · rw [itemOf, if_neg ends, if_neg (show ¬ (frame.1 &&& FLAG_EOS != 0) = true from ends)]
    rfl

theorem poll_last (found : nextEnvelope buf = .incomplete) :
    poll endOfStreamError parses [] buf = none := by
  obtain ⟨error, failed⟩ := nextEnvelope_incomplete found
  rw [poll, failed]

theorem poll_more (chunk : Bytes) (rest : List Bytes) (found : nextEnvelope buf = .incomplete) :
    poll endOfStreamError parses (chunk :: rest) buf = poll endOfStreamError parses rest (buf ++ chunk) := by
  obtain ⟨error, failed⟩ := nextEnvelope_incomplete found
  rw [poll, failed]

theorem poll_incomplete (found : nextEnvelope (buf ++ chunks.flatten) = .incomplete) :
    poll endOfStreamError parses chunks buf = none := by
  induction chunks generalizing buf with
  | nil =>
    rw [List.flatten_nil, List.append_nil] at found
    exact poll_last endOfStreamError parses found
  | cons chunk rest ih =>
    rw [poll_more _ _ chunk rest (nextEnvelope_left found)]
    exact ih (by rwa [List.append_assoc, ← List.flatten_cons])

/-- A poll takes the frame at the front of what is buffered and of what is still to come. -/
theorem poll_item {frame : UInt8 × Bytes} {left : Bytes}
    (found : nextEnvelope (buf ++ chunks.flatten) = .item frame left) :
    ∃ rest behind, behind ++ rest.flatten = left ∧ poll endOfStreamError parses chunks buf =
      (itemOf endOfStreamError parses frame).map fun item => (item, rest, behind) := by
  induction chunks generalizing buf with
  | nil =>
    rw [List.flatten_nil, List.append_nil] at found
    exact ⟨[], left, List.append_nil _, poll_front _ _ [] found⟩
  | cons chunk rest ih =>
    cases step : nextEnvelope buf with
    | stop never => cases never
    | item other behind =>
      rw [nextEnvelope_stable (by rw [step]; nofun), step] at found
      cases found
      exact ⟨chunk :: rest, behind, rfl, poll_front _ _ _ step⟩
    | incomplete =>
      rw [poll_more _ _ chunk rest step]
      exact ih (by rwa [List.append_assoc, ← List.flatten_cons])

/-- The stream of the Rust client goes by the frames of all that it gets. -/
theorem streamUpdates_eq {stream : Bytes} (whole : buf ++ chunks.flatten = stream) :
    streamUpdates endOfStreamError parses chunks buf = itemsOf endOfStreamError parses (framesOf stream) := by
  induction stream using frames_induction generalizing chunks buf with
  | incomplete stream found =>
    rw [streamUpdates, (framesOf_incomplete found).1]
    rw [← whole] at found
    split
    · rfl
    · rename_i polled
      rw [poll_incomplete _ _ found] at polled
      cases polled
  | item stream frame left found ih =>
    rw [streamUpdates, (framesOf_item found).1, itemsOf]
    rw [← whole] at found
    obtain ⟨rest, behind, later, taken⟩ := poll_item endOfStreamError parses found
    cases item : itemOf endOfStreamError parses frame with
    | none =>
      rw [item] at taken
      split
      · rfl
      · rename_i polled
        rw [taken] at polled
        cases polled
    | some value =>
      rw [item] at taken
      split
      · rename_i polled
        rw [taken] at polled
        cases polled
      · rename_i polled
        rw [taken] at polled
        cases polled
        rw [ih later]

end Rust

end Updates

section Verdicts

variable {ε : Type} (endOfStreamError : Bytes → Option ε) (parses : Bytes → Bool) (sequence : Bytes → Nat)

/-- How a terminal state is taken by a consumer. -/
def Go.ended : Terminal ε → Ended
  | .clean => .cleanly
  | _ => .inError

/-- What the consumer of the Go decoder gets, and how the stream ends for it. -/
def Go.verdict (r : List Read) : List Bytes × Ended :=
  ((outcome endOfStreamError r).1, ended (outcome endOfStreamError r).2)

def Rust.verdict (chunks : List Bytes) : List Bytes × Ended :=
  (payloads (streamUpdates endOfStreamError parses chunks []),
    ended (streamUpdates endOfStreamError parses chunks []))

/-- A gap that is reported is no message. -/
def Python.verdict (aware : Bool) (chunks : List Bytes) : List Bytes × Ended :=
  ((iterEvents endOfStreamError parses sequence aware none [] chunks).1.filterMap id,
    (iterEvents endOfStreamError parses sequence aware none [] chunks).2)

def TypeScript.verdict (gapAware : Bool) (chunks : List Bytes) : List Bytes × Ended :=
  ((iterEvents endOfStreamError parses sequence gapAware 0 [] chunks).1.filterMap id,
    (iterEvents endOfStreamError parses sequence gapAware 0 [] chunks).2)

/-- What the Go decoder makes of the frames of a stream and of the bytes behind them. -/
def Go.walk (rest : Bytes) : List (UInt8 × Bytes) → List Bytes × Ended
  | [] => ([], if rest = [] then .cleanly else .inError)
  | (flags, payload) :: more =>
    if MaxFrameLength < payload.length then ([], .inError)
    else if isEnd flags then ([], endedBy endOfStreamError payload)
    else (payload :: (walk rest more).1, (walk rest more).2)

/-- What the two iterators make of them. -/
def iterWalk (rest : Bytes) : List (UInt8 × Bytes) → List Bytes × Ended
  | [] => ([], match nextBuffered rest with
    | .incomplete => .cleanly
    | _ => .inError)
  | (flags, payload) :: more =>
    if MaxFrameLength < payload.length then ([], .inError)
    else if isEnd flags then ([], endedBy endOfStreamError payload)
    else if parses payload then (payload :: (iterWalk rest more).1, (iterWalk rest more).2)
    else ([], .inError)

/-- What the Rust client makes of them. -/
def Rust.walk (frames : List (UInt8 × Bytes)) : List Bytes × Ended :=
  (payloads (itemsOf endOfStreamError parses frames), ended (itemsOf endOfStreamError parses frames))

theorem Go.ended_endOfStream (payload : Bytes) :
    ended (terminal endOfStreamError (report (.stopped (.endOfStream payload)))) =
      endedBy endOfStreamError payload := by
  unfold report terminal endedBy
  dsimp only
  cases endOfStreamError payload <;> rfl

theorem Go.meaning_walk (empty : endOfStreamError [] = none) (stream : Bytes) :
    ((meaning endOfStreamError stream).1, ended (meaning endOfStreamError stream).2) =
      walk endOfStreamError (tailOf stream) (framesOf stream) := by
  unfold meaning
  induction stream using frames_induction with
  | incomplete stream found =>
    obtain ⟨none_whole, all_left⟩ := framesOf_incomplete found
    rw [none_whole, all_left, walk]
    rcases nextBuffered_of_incomplete found with waits | ⟨some_left, length, large⟩
    · rw [Framing.decode_incomplete (show frames.step stream = _ from waits),
        terminal_left endOfStreamError empty]
      split <;> rfl
    · rw [Framing.decode_stop (show frames.step stream = _ from large), if_neg some_left]
      rfl
  | item stream frame rest found ih =>
    obtain ⟨more, behind⟩ := framesOf_item found
    rw [more, behind, walk]
    have front : frames.step stream = _ := nextBuffered_of_item found
    split at front
    · rename_i large
      rw [Framing.decode_stop front, if_pos large]
      rfl
    rename_i fits
    rw [if_neg fits]
    split at front
    · rename_i ends
      rw [Framing.decode_stop front, if_pos ends, Go.ended_endOfStream]
    · rename_i goes_on
      rw [Framing.decode_item front, if_neg goes_on, ← ih]

theorem heard_eq {r : List Read} (reads : ∀ read ∈ r, read.data ≠ []) : heard r = streamOf r := by
  have all : r.takeWhile (fun read => read.data ≠ []) = r :=
    List.takeWhile_eq_self_iff.mpr fun read member => decide_eq_true (reads read member)
  rw [heard, all]
  rfl

theorem Go.verdict_eq (empty : endOfStreamError [] = none) {r : List Read}
    (reads : ∀ read ∈ r, read.data ≠ [] ∧ read.err ≠ some .failed) :
    verdict endOfStreamError r = walk endOfStreamError (tailOf (streamOf r)) (framesOf (streamOf r)) := by
  rw [← meaning_walk endOfStreamError empty, ← heard_eq fun read member => (reads read member).1,
    ← outcome_eq endOfStreamError fun read member => (reads read member).2]
  rfl

theorem Rust.verdict_eq (chunks : List Bytes) :
    verdict endOfStreamError parses chunks = walk endOfStreamError parses (framesOf chunks.flatten) := by
  rw [verdict, streamUpdates_eq endOfStreamError parses (List.nil_append _)]
  rfl

theorem framePass_walk {σ : Type} (gap : σ → Nat → Bool × σ) (prev : σ) (stream : Bytes) :
    ((finish (framePass endOfStreamError parses sequence gap prev stream)).1.filterMap id,
      (finish (framePass endOfStreamError parses sequence gap prev stream)).2) =
        iterWalk endOfStreamError parses (tailOf stream) (framesOf stream) := by
  induction stream using frames_induction generalizing prev with
  | incomplete stream found =>
    obtain ⟨none_whole, all_left⟩ := framesOf_incomplete found
    rw [none_whole, all_left]
    rcases nextBuffered_of_incomplete found with waits | ⟨-, length, large⟩
    · rw [framePass_incomplete _ _ _ _ prev waits]
      simp [finish, iterWalk, waits]
    · rw [framePass_stop _ _ _ _ prev large]
      simp [finish, iterWalk, large, stoppedBy]
  | item stream frame rest found ih =>
    obtain ⟨more, behind⟩ := framesOf_item found
    rw [more, behind, iterWalk]
    have front := nextBuffered_of_item found
    split at front
    · rename_i large
      rw [framePass_stop _ _ _ _ prev front, if_pos large]
      rfl
    rename_i fits
    rw [if_neg fits]
    split at front
    · rename_i ends
      rw [framePass_stop _ _ _ _ prev front, if_pos ends]
      rfl
    rename_i goes_on
    rw [if_neg goes_on]
    cases parsed : parses frame.2 with
    | false =>
      rw [framePass_unparsed _ _ _ _ prev front parsed]
      rfl
    | true =>
      rw [framePass_item _ _ _ _ prev front parsed, ← ih (gap prev (sequence frame.2)).2]
      simp only [finish, if_true]
      split <;> simp

theorem Python.verdict_eq (aware : Bool) (chunks : List Bytes) :
    verdict endOfStreamError parses sequence aware chunks =
      iterWalk endOfStreamError parses (tailOf chunks.flatten) (framesOf chunks.flatten) := by
  rw [verdict, iterEvents_eq _ _ _ aware none chunks (show nextBuffered [] = .incomplete from rfl),
    framePass_walk, List.nil_append]

theorem TypeScript.verdict_eq (gapAware : Bool) (chunks : List Bytes) :
    verdict endOfStreamError parses sequence gapAware chunks =
      iterWalk endOfStreamError parses (tailOf chunks.flatten) (framesOf chunks.flatten) := by
  rw [verdict, iterEvents_eq, framePass_walk, List.nil_append]

end Verdicts

section Agreement

variable {ε : Type} (endOfStreamError : Bytes → Option ε) (parses : Bytes → Bool)

/-- An end-of-stream frame that carries no error. -/
def cleanEnd (frame : UInt8 × Bytes) : Bool := isEnd frame.1 && (endOfStreamError frame.2).isNone

/-- A message that every reader delivers. -/
def ordinary (frame : UInt8 × Bytes) : Bool :=
  !isEnd frame.1 && parses frame.2 && frame.2.length ≤ MaxFrameLength

/-- No message is delivered from these frames by a reader that reads on to a clean end. -/
def Silent (frames : List (UInt8 × Bytes)) : Prop :=
  ∀ frame ∈ frames.takeWhile (!cleanEnd endOfStreamError ·), isEnd frame.1 ∨ parses frame.2 = false

/-- Behind its ordinary messages a stream holds nothing, or a clean end, or a frame that all the
readers refuse, with no message behind it. -/
def OneMeaning (stream : Bytes) : Prop :=
  match (framesOf stream).dropWhile (ordinary parses) with
  | [] => tailOf stream = []
  | frame :: more =>
    if cleanEnd endOfStreamError frame then frame.2.length ≤ MaxFrameLength
    else (isEnd frame.1 ∨ parses frame.2 = false ∧ MaxFrameLength < frame.2.length) ∧
      Silent endOfStreamError parses more

/-- What the Rust client makes of a frame and of what follows it. -/
theorem Rust.walk_cons (frame : UInt8 × Bytes) (more : List (UInt8 × Bytes)) :
    walk endOfStreamError parses (frame :: more) =
      if cleanEnd endOfStreamError frame then ([], .cleanly)
      else if isEnd frame.1 ∨ parses frame.2 = false then
        ((walk endOfStreamError parses more).1, .inError)
      else (frame.2 :: (walk endOfStreamError parses more).1, (walk endOfStreamError parses more).2) := by
  rw [walk, itemsOf, itemOf, cleanEnd]
  cases isEnd frame.1 with
  | true => cases endOfStreamError frame.2 <;> simp [walk, payloads, ended]
  | false => cases parses frame.2 <;> simp [walk, payloads, ended]

theorem Rust.walk_silent_iff (frames : List (UInt8 × Bytes)) :
    (walk endOfStreamError parses frames).1 = [] ↔ Silent endOfStreamError parses frames := by
  induction frames with
  | nil => simp [walk, itemsOf, payloads, Silent]
  | cons frame more ih =>
    rw [Rust.walk_cons]
    unfold Silent at ih ⊢
    by_cases clean : cleanEnd endOfStreamError frame = true
    · simp [clean]
    · rw [if_neg clean, List.takeWhile_cons_of_pos (by simpa using clean), List.forall_mem_cons]
      by_cases passed : isEnd frame.1 = true ∨ parses frame.2 = false
      · rw [if_pos passed]
        simp [passed, ih]
      · rw [if_neg passed]
        simp [passed]

/-- The readers agree on the frames of a stream just if it has one meaning. -/
theorem walks_agree_iff (stream : Bytes) :
    (Rust.walk endOfStreamError parses (framesOf stream) =
        Go.walk endOfStreamError (tailOf stream) (framesOf stream) ∧
      Rust.walk endOfStreamError parses (framesOf stream) =
        iterWalk endOfStreamError parses (tailOf stream) (framesOf stream)) ↔
      OneMeaning endOfStreamError parses stream := by
  unfold OneMeaning
  induction framesOf stream with
  | nil =>
    rw [Go.walk, iterWalk, Rust.walk, List.dropWhile_nil]
    by_cases ends : tailOf stream = []
    · rw [ends]
      simp [Rust.itemsOf, Rust.payloads, Rust.ended, nextBuffered]
    · simp [ends, Rust.itemsOf, Rust.payloads, Rust.ended]
  | cons frame more ih =>
    rw [Go.walk, iterWalk, Rust.walk_cons]
    by_cases usual : ordinary parses frame = true
    · rw [List.dropWhile_cons_of_pos usual, ← ih]
      obtain ⟨⟨message, parsed⟩, fits⟩ : (isEnd frame.1 = false ∧ parses frame.2 = true) ∧
          frame.2.length ≤ MaxFrameLength := by
        simpa [ordinary] using usual
      have unended : cleanEnd endOfStreamError frame = false := by simp [cleanEnd, message]
      simp [Nat.not_lt.mpr fits, message, parsed, unended, Prod.ext_iff]
    · rw [List.dropWhile_cons_of_neg usual]
      dsimp only
      rw [← Rust.walk_silent_iff]
      by_cases large : MaxFrameLength < frame.2.length
      · cases ends : isEnd frame.1 with
        | true =>
          cases error : endOfStreamError frame.2 with
          | none => simp [cleanEnd, ends, error, large]
          | some reason => simp [cleanEnd, ends, error, large]
        | false =>
          cases parsed : parses frame.2 with
          | true => simp [cleanEnd, ends, large]
          | false => simp [cleanEnd, ends, large]
      · cases ends : isEnd frame.1 with
        | true =>
          cases error : endOfStreamError frame.2 with
          | none => simp [cleanEnd, ends, error, large, endedBy, Nat.not_lt.mp large]
          | some reason => simp [cleanEnd, ends, error, large, endedBy]
        | false =>
          -- A message that does not parse is delivered by the Go decoder alone.
          have unparsed : parses frame.2 = false := by
            simpa [ordinary, ends, Nat.not_lt.mp large] using usual
          simp only [cleanEnd, ends, large, unparsed, Bool.false_and, Bool.false_eq_true, if_false,
            if_true, or_true, Prod.mk.injEq, false_and, or_false, and_false]
          refine iff_false_intro fun same => ?_
          have delivered := same.1.1.symm.trans same.2.1
          cases delivered

/-- The four readers, each with its own chunks of one stream, deliver the same messages and end
alike just if the stream has one meaning. -/
theorem readers_agree_iff (empty : endOfStreamError [] = none) (sequence : Bytes → Nat)
    (aware gapAware : Bool) {stream : Bytes} {r : List Read} {rust python typescript : List Bytes}
    (reads : ∀ read ∈ r, read.data ≠ [] ∧ read.err ≠ some .failed) (go_whole : streamOf r = stream)
    (rust_whole : rust.flatten = stream) (python_whole : python.flatten = stream)
    (typescript_whole : typescript.flatten = stream) :
    (Go.verdict endOfStreamError r = Rust.verdict endOfStreamError parses rust ∧
      Rust.verdict endOfStreamError parses rust =
        Python.verdict endOfStreamError parses sequence aware python ∧
      Python.verdict endOfStreamError parses sequence aware python =
        TypeScript.verdict endOfStreamError parses sequence gapAware typescript) ↔
      OneMeaning endOfStreamError parses stream := by
  rw [Go.verdict_eq endOfStreamError empty reads, Rust.verdict_eq, Python.verdict_eq,
    TypeScript.verdict_eq, go_whole, rust_whole, python_whole, typescript_whole, ← walks_agree_iff,
    eq_comm]
  simp only [and_true]

end Agreement

/-- The end-of-stream error of a stream that is closed with `{"error":{}}`, and of no other. -/
def refusedByEmptyError (payload : Bytes) : Option Unit :=
  if payload = [123, 34, 101, 114, 114, 111, 114, 34, 58, 123, 125, 125] then some () else none

theorem readers_agree_iff_split :
    Go.verdict refusedByEmptyError split =
        Rust.verdict refusedByEmptyError (fun _ => true)
          [[0, 0, 0, 0, 2, 104, 105, 2, 0, 0], [0, 2, 123, 125]] ∧
      Rust.verdict refusedByEmptyError (fun _ => true)
          [[0, 0, 0, 0, 2, 104, 105, 2, 0, 0], [0, 2, 123, 125]] =
        Python.verdict refusedByEmptyError (fun _ => true) (fun _ => 1) true
          [[0], [0, 0, 0, 2, 104, 105, 2, 0, 0, 0, 2, 123, 125]] ∧
      Python.verdict refusedByEmptyError (fun _ => true) (fun _ => 1) true
          [[0], [0, 0, 0, 2, 104, 105, 2, 0, 0, 0, 2, 123, 125]] =
        TypeScript.verdict refusedByEmptyError (fun _ => true) (fun _ => 1) true
          [[0, 0, 0, 0, 2, 104, 105, 2, 0, 0, 0, 2, 123, 125]] := by
  refine (readers_agree_iff (r := split) refusedByEmptyError (fun _ => true) rfl (fun _ => 1) true true
    (by decide) rfl ?_ ?_ ?_).mpr ?_
  · rfl
  · rfl
  · rfl
  have found : framesOf (streamOf split) = [(0, [104, 105]), (2, [123, 125])] := by decide +kernel
  unfold OneMeaning
  rw [found]
  exact (by decide : ([123, 125] : Bytes).length ≤ MaxFrameLength)

/-- A stream that breaks off in a frame is an error for the Go decoder and a clean end for the
others; a message behind an end that carries an error is delivered by the Rust client alone. -/
theorem readers_disagree :
    (Go.verdict refusedByEmptyError [⟨[0, 0, 0, 0, 2, 104], none⟩] = ([], .inError) ∧
      Rust.verdict refusedByEmptyError (fun _ => true) [[0, 0, 0, 0, 2, 104]] = ([], .cleanly) ∧
      Python.verdict refusedByEmptyError (fun _ => true) (fun _ => 1) true [[0, 0, 0, 0, 2, 104]] =
        ([], .cleanly) ∧
      TypeScript.verdict refusedByEmptyError (fun _ => true) (fun _ => 1) true [[0, 0, 0, 0, 2, 104]] =
        ([], .cleanly)) ∧
    let refused := [2, 0, 0, 0, 12, 123, 34, 101, 114, 114, 111, 114, 34, 58, 123, 125, 125,
      0, 0, 0, 0, 2, 104, 105]
    Go.verdict refusedByEmptyError [⟨refused, none⟩] = ([], .inError) ∧
      Rust.verdict refusedByEmptyError (fun _ => true) [refused] = ([[104, 105]], .inError) ∧
      Python.verdict refusedByEmptyError (fun _ => true) (fun _ => 1) true [refused] = ([], .inError) ∧
      TypeScript.verdict refusedByEmptyError (fun _ => true) (fun _ => 1) true [refused] =
        ([], .inError) := by
  decide +kernel

end LongTrader.Sdk
