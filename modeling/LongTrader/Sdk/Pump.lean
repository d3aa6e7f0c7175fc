import LongTrader.Sdk.Contract.Worker
import LongTrader.Sdk.Presence
import LongTrader.Sdk.Stream
import LongTrader.Session.Service

/-! The strategy event stream of the Go SDK: what the pump sends into the channel before it
closes it, how that tells the ends of a stream apart, and where it marks gaps. -/

namespace LongTrader.Sdk

open Contract

/-- `session.Event`. -/
structure Event (ε : Type) where
  Gap : Bool := false
  Message : Option StrategyEvent := none
  Err : Option ε := none

/-- The sequence of an event, zero without a header. -/
def headerSequence (ev : StrategyEvent) : UInt64 :=
  match ev.Header with
  | none => 0
  | some header => header.Sequence

section Pump

variable {ε : Type} (endStreamFrameError : Bytes → Option ε)

/-- What one event makes the pump send, and the `prev` it leaves. -/
def pumpEvent (prev : UInt64) (ev : StrategyEvent) : List (Event ε) × UInt64 :=
  let seq := headerSequence ev
  if seq > 0 then
    ((if prev > 0 ∧ seq ≠ prev + 1 then [{ Gap := true }] else []) ++ [{ Message := some ev }], seq)
  else ([{ Message := some ev }], prev)

/-- `pumpStrategyEvents` while `ctx` is not cancelled: all that is sent before the channel is
closed. -/
def pumpStrategyEvents (dec : StreamDecoder) (prev : UInt64) : List (Event ε) :=
  match _ : dec.Next with
  | (.error _, dec) => match endStreamFrameError dec.eos with
    | some cerr => [{ Err := some cerr }]
    | none => []
  | (.ok payload, dec) => match Message.Unmarshal (T := StrategyEvent) payload with
    | (_, some _) => []
    | (ev, none) => (pumpEvent prev ev).1 ++ pumpStrategyEvents dec (pumpEvent (ε := ε) prev ev).2
termination_by dec.remaining
decreasing_by exact StreamDecoder.Next_remaining ‹_›

/-- `Session.StreamEvents`, with what the host answers to the request. -/
def StreamEvents (openStream : StreamStrategyEventsRequest → Except ε (List Read))
    (sessionID : Bytes) (resumeToken : String) : Except ε (List (Event ε)) :=
  (openStream { SessionID := sessionID, ResumeToken := utf8 resumeToken }).map fun body =>
    pumpStrategyEvents endStreamFrameError (NewStreamDecoder body) 0

end Pump

section Delivery

variable {ε : Type} (endStreamFrameError : Bytes → Option ε)

/-- The item that closes a stream, if there is one. -/
def closing (eos : Bytes) : List (Event ε) :=
  match endStreamFrameError eos with
  | some cerr => [{ Err := some cerr }]
  | none => []

/-- What the pump sends for payloads and for the end behind them. -/
def deliver (eos : Bytes) (prev : UInt64) : List Bytes → List (Event ε)
  | [] => closing endStreamFrameError eos
  | payload :: rest => match Message.Unmarshal (T := StrategyEvent) payload with
    | (_, some _) => []
    | (ev, none) => (pumpEvent prev ev).1 ++ deliver eos (pumpEvent (ε := ε) prev ev).2 rest

/-- The pump sends what it sends for the payloads of its decoder. -/
theorem pumpStrategyEvents_drain (dec : StreamDecoder) (prev : UInt64) :
    pumpStrategyEvents endStreamFrameError dec prev =
      deliver endStreamFrameError dec.drain.2.2 prev dec.drain.1 := by
  induction size : dec.remaining using Nat.strongRecOn generalizing dec prev with
  | ind bound ih =>
    rw [pumpStrategyEvents]
    split
    · rename_i error after next
      rw [StreamDecoder.drain_error next]
      rfl
    · rename_i payload after next
      have smaller := StreamDecoder.Next_remaining next
      rw [StreamDecoder.drain_ok next]
      dsimp only
      rw [deliver]
      split
      · rfl
      · rw [ih after.remaining (size ▸ smaller) after _ rfl]

/-- The payload of the end-of-stream frame, if the stream came to one. -/
def eosOf : Framing.End UInt8 Final → Bytes
  | .stopped (.endOfStream payload) => payload
  | _ => []

theorem eosOf_reportAs (said : ReadError) (ends : Framing.End UInt8 Final) :
    (reportAs said ends).2 = eosOf ends := by
  rcases ends with (_ | _) | _
  · rfl
  · rfl
  · rfl

/-- The pump on a fresh decoder, by the frames of what it hears. -/
theorem pump_heard (body : List Read) :
    pumpStrategyEvents endStreamFrameError (NewStreamDecoder body) 0 =
      deliver endStreamFrameError (eosOf (Framing.decode frames (heard body)).2) 0
        (Framing.decode frames (heard body)).1 := by
  have drained := @StreamDecoder.drain_heard (NewStreamDecoder body) rfl rfl
  rw [pumpStrategyEvents_drain, drained, eosOf_reportAs]
  rfl

end Delivery

section Ends

variable {ε : Type} (endStreamFrameError : Bytes → Option ε)

/-- Whether a payload is an event. -/
def Decodes (payload : Bytes) : Prop := (Message.Unmarshal (T := StrategyEvent) payload).2 = none

instance (payload : Bytes) : Decidable (Decodes payload) :=
  inferInstanceAs (Decidable (_ = none))

/-- How a stream comes to its end. -/
inductive Ending (ε : Type) where
  | endOfStream (error : Option ε)
  | boundary
  | truncated
  | tooLarge
  | undecodable
  | readerError
  | interrupted
  deriving DecidableEq

/-- The end of what a reader returns: an undecodable payload before any other end, then a
frame that ends the stream, then how the reader ends it. -/
def ending (body : List Read) : Ending ε :=
  let decoded := Framing.decode frames (heard body)
  if ∃ payload ∈ decoded.1, ¬ Decodes payload then .undecodable
  else match decoded.2 with
    | .stopped (.endOfStream payload) => .endOfStream (endStreamFrameError payload)
    | .stopped (.tooLarge _) => .tooLarge
    | .left rest =>
      if ∃ read ∈ body, read.err = some .failed then .readerError
      else if unheard body ≠ [] then .interrupted
      else if rest = [] then .boundary
      else .truncated

/-- The error of the last item. -/
def finalErr (items : List (Event ε)) : Option ε := items.getLast?.bind Event.Err

theorem finalErr_append {items more : List (Event ε)} (silent : ∀ item ∈ items, item.Err = none) :
    finalErr (items ++ more) = finalErr more := by
  unfold finalErr
  rw [List.getLast?_append]
  cases last : more.getLast? with
  | some item => rfl
  | none =>
    cases before : items.getLast? with
    | none => rfl
    | some item => exact silent item (List.mem_of_getLast? before)

theorem pumpEvent_silent (prev : UInt64) (ev : StrategyEvent) :
    ∀ item ∈ (pumpEvent (ε := ε) prev ev).1, item.Err = none := by
  intro item member
  unfold pumpEvent at member
  dsimp only at member
  split at member
  · rcases List.mem_append.mp member with gap | message
    · split at gap
      · rw [List.mem_singleton.mp gap]
      · cases gap
    · rw [List.mem_singleton.mp message]
  · rw [List.mem_singleton.mp member]

/-- Only an end-of-stream frame with an error makes the last item an error. -/
theorem deliver_finalErr (eos : Bytes) (prev : UInt64) (payloads : List Bytes) :
    finalErr (deliver endStreamFrameError eos prev payloads) =
      if ∃ payload ∈ payloads, ¬ Decodes payload then none else endStreamFrameError eos := by
  induction payloads generalizing prev with
  | nil =>
    rw [deliver, closing, if_neg (by simp)]
    cases endStreamFrameError eos <;> rfl
  | cons payload rest ih =>
    rw [deliver]
    split
    · rename_i failed
      have undecodable : ¬ Decodes payload := by
        rw [Decodes, failed]
        nofun
      rw [if_pos ⟨payload, List.mem_cons_self .., undecodable⟩]
      rfl
    · rename_i decoded
      have fine : Decodes payload := by rw [Decodes, decoded]
      rw [finalErr_append (pumpEvent_silent prev _), ih]
      simp [fine]

/-- The pump tells every end that is not clean from a clean one just if the stream comes to
an end-of-stream frame, clean or not, or ends at the boundary of a frame. -/
theorem pump_reports_iff (empty : endStreamFrameError [] = none) (body : List Read) :
    (finalErr (pumpStrategyEvents endStreamFrameError (NewStreamDecoder body) 0) = none →
        ending endStreamFrameError body = .endOfStream none ∨
          ending endStreamFrameError body = .boundary) ↔
      (∃ error, ending endStreamFrameError body = .endOfStream error) ∨
        ending endStreamFrameError body = .boundary := by
  rw [pump_heard, deliver_finalErr]
  constructor
  · intro tells
    by_cases undecodable : ∃ payload ∈ (Framing.decode frames (heard body)).1, ¬ Decodes payload
    · rw [if_pos undecodable] at tells
      exact (tells rfl).imp_left fun clean => ⟨none, clean⟩
    · rw [if_neg undecodable] at tells
      cases ends : (Framing.decode frames (heard body)).2 with
      | stopped reason =>
        cases reason with
        | endOfStream payload =>
          refine .inl ⟨endStreamFrameError payload, ?_⟩
          unfold ending
          dsimp only
          rw [if_neg undecodable, ends]
        | tooLarge length =>
          rw [ends] at tells
          exact (tells empty).imp_left fun clean => ⟨none, clean⟩
      | left rest =>
        rw [ends] at tells
        exact (tells empty).imp_left fun clean => ⟨none, clean⟩
  · rintro (⟨error, ended⟩ | boundary) silent
    · left
      unfold ending at ended ⊢
      dsimp only at ended ⊢
      split at ended
      · cases ended
      · rename_i decodable
        rw [if_neg decodable] at silent ⊢
        rcases ends : (Framing.decode frames (heard body)).2 with (payload | length) | rest
        · rw [ends] at silent
          exact congrArg Ending.endOfStream silent
        · rw [ends] at ended
          cases ended
        · rw [ends] at ended
          dsimp only at ended
          repeat' split at ended
          all_goals cases ended
    · exact .inr boundary

/-- One event, and the end-of-stream frame with `{}` behind it. -/
def closed : List Read := [⟨Envelope [] 0, none⟩, ⟨Envelope [123, 125] 2, some .EOF⟩]

theorem pump_reports_iff_closed :
    ending (fun _ => (none : Option Unit)) closed = .endOfStream none ∨
      ending (fun _ => (none : Option Unit)) closed = .boundary := by
  have ended : ending (fun _ => (none : Option Unit)) closed = .endOfStream none := by decide +kernel
  exact (pump_reports_iff (fun _ => none) rfl closed).mpr (.inl ⟨none, ended⟩) (by decide +kernel)

/-- A header that is cut off closes the channel without an error. -/
theorem pump_silent_on_truncation :
    finalErr (pumpStrategyEvents (fun _ => (none : Option Unit))
        (NewStreamDecoder [⟨[0, 0, 0], some .EOF⟩]) 0) = none ∧
      ending (fun _ => (none : Option Unit)) [⟨[0, 0, 0], some .EOF⟩] = .truncated := by
  decide +kernel

end Ends

section Gaps

variable {ε : Type} (endStreamFrameError : Bytes → Option ε)

/-- The events of payloads, up to the first that is not one. -/
def decodedPrefix : List Bytes → List StrategyEvent
  | [] => []
  | payload :: rest => match Message.Unmarshal (T := StrategyEvent) payload with
    | (_, some _) => []
    | (ev, none) => ev :: decodedPrefix rest

/-- The events that a reader delivers. -/
def events (body : List Read) : List StrategyEvent :=
  decodedPrefix (Framing.decode frames (heard body)).1

/-- Events with a gap before each that is not the next after the one before, or after `n`. -/
def marked (n : Nat) : List StrategyEvent → List (Event ε)
  | [] => []
  | ev :: rest =>
    (if (headerSequence ev).toNat = n + 1 then [] else [{ Gap := true }]) ++
      [{ Message := some ev }] ++ marked (headerSequence ev).toNat rest

/-- The items before the error that may close the stream. -/
def heardItems (items : List (Event ε)) : List (Event ε) := items.filter fun item => item.Err.isNone

theorem heardItems_silent {items : List (Event ε)} (silent : ∀ item ∈ items, item.Err = none) :
    heardItems items = items := by
  apply List.filter_eq_self.mpr
  intro item member
  rw [silent item member]
  rfl

theorem heardItems_closing (eos : Bytes) : heardItems (closing endStreamFrameError eos) = [] := by
  unfold closing
  split
  · rfl
  · rfl

theorem heardItems_deliver (eos : Bytes) (prev : UInt64) (ev : StrategyEvent) (payload : Bytes)
    (rest : List Bytes) (decoded : Message.Unmarshal (T := StrategyEvent) payload = (ev, none)) :
    heardItems (deliver endStreamFrameError eos prev (payload :: rest)) =
      (pumpEvent prev ev).1 ++
        heardItems (deliver endStreamFrameError eos (pumpEvent (ε := ε) prev ev).2 rest) := by
  rw [deliver, decoded]
  dsimp only
  unfold heardItems
  rw [List.filter_append]
  exact congrArg (· ++ _) (heardItems_silent (pumpEvent_silent prev ev))

/-- After an event that carries its sequence, a number is the next one just if it is one more. -/
theorem next_iff {prev seq : UInt64} (numbered : seq ≠ 0) :
    seq = prev + 1 ↔ seq.toNat = prev.toNat + 1 := by
  have positive : seq.toNat ≠ 0 := fun zero => numbered (UInt64.toNat_inj.mp zero)
  have bounds := And.intro prev.toNat_lt seq.toNat_lt
  rw [← UInt64.toNat_inj, UInt64.toNat_add]
  have one : (1 : UInt64).toNat = 1 := rfl
  rw [one]
  omega

/-- Behind an event the pump marks what it should. -/
theorem deliver_marked (eos : Bytes) {prev : UInt64} (known : prev ≠ 0) {payloads : List Bytes}
    (numbered : ∀ ev ∈ decodedPrefix payloads, headerSequence ev ≠ 0) :
    heardItems (deliver endStreamFrameError eos prev payloads) =
      marked prev.toNat (decodedPrefix payloads) := by
  induction payloads generalizing prev with
  | nil => exact heardItems_closing endStreamFrameError eos
  | cons payload rest ih =>
    rcases decoded : Message.Unmarshal (T := StrategyEvent) payload with ⟨ev, _ | error⟩
    · have shape : decodedPrefix (payload :: rest) = ev :: decodedPrefix rest := by
        rw [decodedPrefix, decoded]
      rw [shape] at numbered ⊢
      have first := numbered ev (List.mem_cons_self ..)
      have later := fun other member => numbered other (List.mem_cons_of_mem _ member)
      have behind := ih first later
      rw [heardItems_deliver endStreamFrameError eos prev ev payload rest decoded, marked]
      unfold pumpEvent
      dsimp only
      rw [if_pos (UInt64.pos_iff_ne_zero.mpr first), behind]
      by_cases next : headerSequence ev = prev + 1
      · rw [if_neg fun gap => gap.2 next, if_pos ((next_iff first).mp next)]
      · rw [if_pos ⟨UInt64.pos_iff_ne_zero.mpr known, next⟩,
          if_neg fun same => next ((next_iff first).mpr same)]
    · have shape : decodedPrefix (payload :: rest) = [] := by rw [decodedPrefix, decoded]
      rw [shape, deliver, decoded]
      rfl

/-- The first event is never marked, and the others are marked as they should be. -/
theorem pump_marked_iff (n : Nat) {body : List Read}
    (numbered : ∀ ev ∈ events body, headerSequence ev ≠ 0) :
    heardItems (pumpStrategyEvents endStreamFrameError (NewStreamDecoder body) 0) =
        marked n (events body) ↔
      ∀ ev ∈ (events body).head?, (headerSequence ev).toNat = n + 1 := by
  rw [pump_heard]
  unfold events at numbered ⊢
  generalize eosOf (Framing.decode frames (heard body)).2 = eos
  cases payloads : (Framing.decode frames (heard body)).1 with
  | nil => simpa [decodedPrefix, marked, deliver] using heardItems_closing endStreamFrameError eos
  | cons payload rest =>
    rw [payloads] at numbered
    rcases decoded : Message.Unmarshal (T := StrategyEvent) payload with ⟨ev, _ | error⟩
    · have shape : decodedPrefix (payload :: rest) = ev :: decodedPrefix rest := by
        rw [decodedPrefix, decoded]
      rw [shape] at numbered ⊢
      have first := numbered ev (List.mem_cons_self ..)
      have later := fun other member => numbered other (List.mem_cons_of_mem _ member)
      have behind := deliver_marked endStreamFrameError eos first later
      rw [heardItems_deliver endStreamFrameError eos 0 ev payload rest decoded, marked]
      unfold pumpEvent
      dsimp only
      rw [if_pos (UInt64.pos_iff_ne_zero.mpr first), if_neg (by simp), behind]
      simp only [List.head?_cons, Option.mem_some_iff, forall_eq']
      by_cases next : (headerSequence ev).toNat = n + 1
      · simp [next]
      · simp [next]
    · have shape : decodedPrefix (payload :: rest) = [] := by rw [decodedPrefix, decoded]
      rw [shape, deliver, decoded]
      simp [marked, heardItems]

/-- A stream that is resumed after `n` has its gaps marked just if it has no events or the
first of them is the one after `n`. -/
theorem gap_markers_iff {openStream : StreamStrategyEventsRequest → Except ε (List Read)}
    {sessionID : Bytes} {resumeToken : String} {body : List Read}
    (opened : openStream { SessionID := sessionID, ResumeToken := utf8 resumeToken } = .ok body)
    (numbered : ∀ ev ∈ events body, headerSequence ev ≠ 0) :
    ∀ n, Session.afterSeq resumeToken = some n →
      ((∃ items, StreamEvents endStreamFrameError openStream sessionID resumeToken = .ok items ∧
          heardItems items = marked n (events body)) ↔
        ∀ ev ∈ (events body).head?, (headerSequence ev).toNat = n + 1) := by
  intro n _
  rw [← pump_marked_iff endStreamFrameError n numbered, StreamEvents, opened]
  constructor
  · rintro ⟨items, sent, same⟩
    rwa [← Except.ok.inj sent] at same
  · intro same
    exact ⟨_, rfl, same⟩

/-- An event with this sequence and nothing else. -/
def numberedEvent (seq : UInt64) : StrategyEvent := { Header := some { Sequence := seq } }

/-- A stream of one event with this sequence. -/
def oneEvent (seq : UInt64) : List Read := [⟨Envelope (Marshal (numberedEvent seq)) 0, some .EOF⟩]

theorem events_oneEvent {seq : UInt64} (small : (Marshal (numberedEvent seq)).length ≤ MaxFrameLength) :
    events (oneEvent seq) = [numberedEvent seq] := by
  have short : (Marshal (numberedEvent seq)).length < 2 ^ 63 := Nat.lt_of_le_of_lt small (by decide)
  have back := Faithful.returns (numberedEvent seq) short
  have decoded : Framing.decode frames (heard (oneEvent seq)) =
      ([Marshal (numberedEvent seq)], .left []) := by
    have whole : heard (oneEvent seq) = Envelope (Marshal (numberedEvent seq)) 0 ++ [] :=
      heard_cons_of_data (by simp [Envelope]) []
    have frame : frames.step (Envelope (Marshal (numberedEvent seq)) 0 ++ []) =
        .item (Marshal (numberedEvent seq)) [] :=
      (nextBuffered_envelope small 0 []).trans (if_neg (by decide))
    rw [whole, Framing.decode_item frame,
      Framing.decode_incomplete (show frames.step [] = .incomplete from rfl)]
  rw [events, decoded, decodedPrefix, back]
  rfl

/-- A stream that is resumed after 5 and goes on with 6. -/
theorem gap_markers_iff_next :
    ∃ items, StreamEvents (fun _ => (none : Option Unit)) (fun _ => .ok (oneEvent 6)) [] "5" =
        .ok items ∧ heardItems items = marked 5 (events (oneEvent 6)) := by
  have delivered := @events_oneEvent 6 (by decide +kernel)
  refine (gap_markers_iff (fun _ => none) rfl ?_ 5 (by decide)).mpr ?_
  · simp [delivered, numberedEvent, headerSequence]
  · simp [delivered, numberedEvent, headerSequence]

/-- A stream that is resumed after 5 and goes on with 8 is not marked. -/
theorem gap_unmarked_at_resume :
    Session.afterSeq "5" = some 5 ∧ events (oneEvent 8) = [numberedEvent 8] ∧
      ∃ items, StreamEvents (fun _ => (none : Option Unit)) (fun _ => .ok (oneEvent 8)) [] "5" =
        .ok items ∧ heardItems items ≠ marked 5 (events (oneEvent 8)) := by
  have delivered := @events_oneEvent 8 (by decide +kernel)
  refine ⟨by decide, delivered, _, rfl, ?_⟩
  intro same
  have first := (pump_marked_iff (fun _ => (none : Option Unit)) 5 ?_).mp same
  · simp [delivered, numberedEvent, headerSequence] at first
  · simp [delivered, numberedEvent, headerSequence]

end Gaps

end LongTrader.Sdk
