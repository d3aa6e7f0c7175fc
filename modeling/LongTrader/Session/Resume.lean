import LongTrader.Session.Ring
import Mathlib.Data.List.Infix
import Mathlib.Data.List.Nodup

/-! The hand-over from replayed to live events in `stream_strategy_events`: what one
subscriber forwards, and when every event reaches it exactly once. -/

namespace LongTrader.Session

open Interleave

/-- The event yielded to the consumer of a stream by an action. -/
def forwarded : Act sig → Option StrategyEvent
  | ⟨.forward event, _⟩ => some event
  | _ => none

/-- The event taken from the broadcast channel by an action. -/
def received : Act sig → Option StrategyEvent
  | ⟨.recv _ _, .event event⟩ => some event
  | _ => none

@[simp] theorem forwarded_forward (event : StrategyEvent) :
    forwarded ⟨Op.forward event, ()⟩ = some event := rfl

@[simp] theorem forwarded_recv (sid : String) (position : Nat) (answer : Recv) :
    forwarded ⟨Op.recv sid position, answer⟩ = none := rfl

@[simp] theorem received_forward (event : StrategyEvent) :
    received ⟨Op.forward event, ()⟩ = none := rfl

@[simp] theorem received_event (sid : String) (position : Nat) (event : StrategyEvent) :
    received ⟨Op.recv sid position, Recv.event event⟩ = some event := rfl

/-- A stream that is waiting for its next live event, or is over. -/
def Resting : Task Outcome → Prop
  | .done _ => True
  | .act (.recv _ _) _ => True
  | _ => False

/-- The part of a replay that is forwarded. -/
def upTo (watermark : Nat) (replay : List StrategyEvent) : List StrategyEvent :=
  replay.filter fun event => !event.header.any fun header => watermark < header.sequence

/-- An event without a header counts as number 0, which no watermark excludes. -/
theorem mem_upTo {watermark : Nat} {replay : List StrategyEvent} {event : StrategyEvent} :
    event ∈ upTo watermark replay ↔ event ∈ replay ∧ event.sequence ≤ watermark := by
  rw [upTo, List.mem_filter]
  cases stamped : event.header with
  | none => simp [StrategyEvent.sequence, stamped, show (default : EventHeader).sequence = 0 from rfl]
  | some header => simp [StrategyEvent.sequence, stamped]

/-- What a stream does once it holds the replay: it forwards `kept` and then, one by
one, what it receives from position `rx` on. -/
structure Forwards (sid : String) (rx : Nat) (kept : List StrategyEvent) (acts : List (Act sig))
    (last : Task Outcome) : Prop where
  ordered : acts.filterMap forwarded <+: kept ++ acts.filterMap received
  resting : Resting last → acts.filterMap forwarded = kept ++ acts.filterMap received
  places : ∀ first act rest event, acts = first ++ act :: rest → received act = some event →
    act.op = Op.recv sid (rx + (first.filterMap received).length)
  next : ∀ target position onward, last = .act (.recv target position) onward →
    target = sid ∧ position = rx + (acts.filterMap received).length
  only : ∀ act ∈ acts, (∃ event, act.op = Op.forward event) ∨
    ∃ target position, act.op = Op.recv target position

/-- The live half of the stream. -/
def liveTask (sid : String) (rx polls : Nat) : Task Outcome :=
  Outcome.streamed <$> (forwardLive sid rx polls >>= fun _ => pure (.ok ()))

/-- Both halves of the stream. -/
def replayTask (sid : String) (rx polls watermark : Nat) (replay : List StrategyEvent) :
    Task Outcome :=
  Outcome.streamed <$> (forwardReplay watermark replay >>= fun _ =>
    forwardLive sid rx polls >>= fun _ => pure (.ok ()))

section Paths

variable {sid : String} {acts : List (Act sig)} {last : Task Outcome}

theorem path_act {op : Op} {next : op.Ans → Task Outcome}
    (path : Proc.Path (.act op next) acts last) :
    (acts = [] ∧ last = .act op next) ∨
      ∃ ans rest, acts = ⟨op, ans⟩ :: rest ∧ Proc.Path (next ans) rest last := by
  cases path with
  | stop => exact .inl ⟨rfl, rfl⟩
  | act rest => exact .inr ⟨_, _, rfl, rest⟩

theorem path_done {outcome : Outcome} (path : Proc.Path (.done outcome) acts last) :
    acts = [] ∧ last = .done outcome := by
  cases path with
  | stop => exact ⟨rfl, rfl⟩

theorem Forwards.ended {rx : Nat} {outcome : Outcome} :
    Forwards sid rx [] [] (.done outcome) :=
  ⟨List.prefix_refl _, fun _ => rfl, by simp, by simp, by simp⟩

/-- A received event is forwarded before the next one is asked for. -/
theorem Forwards.receive {rx : Nat} {event : StrategyEvent}
    (later : Forwards sid (rx + 1) [] acts last) :
    Forwards sid rx [] (⟨Op.recv sid rx, .event event⟩ :: ⟨Op.forward event, ()⟩ :: acts) last := by
  refine ⟨?_, ?_, ?_, ?_, ?_⟩
  · simpa [List.filterMap_cons] using later.ordered
  · intro rests
    simpa [List.filterMap_cons] using later.resting rests
  · intro first act rest other shape takes
    match first with
    | [] =>
      obtain ⟨same, _⟩ := List.cons.inj shape
      rw [← same]
      rfl
    | [_] =>
      obtain ⟨_, tail⟩ := List.cons.inj shape
      obtain ⟨same, _⟩ := List.cons.inj tail
      rw [← same] at takes
      cases takes
    | _ :: _ :: first =>
      obtain ⟨one, tail⟩ := List.cons.inj shape
      obtain ⟨two, tail⟩ := List.cons.inj tail
      rw [later.places first act rest other tail takes, ← one, ← two]
      have shift : rx + 1 + (first.filterMap received).length =
          rx + ((first.filterMap received).length + 1) := by omega
      simpa [List.filterMap_cons] using shift
  · intro target position onward waits
    obtain ⟨rfl, rfl⟩ := later.next target position onward waits
    refine ⟨rfl, ?_⟩
    have shift : rx + 1 + (acts.filterMap received).length =
        rx + ((acts.filterMap received).length + 1) := by omega
    simpa [List.filterMap_cons] using shift
  · intro act member
    simp only [List.mem_cons] at member
    rcases member with rfl | rfl | member
    · exact .inr ⟨_, _, rfl⟩
    · exact .inl ⟨_, rfl⟩
    · exact later.only act member

private theorem places_single {rx : Nat} {answer : Recv} (first : List (Act sig)) (act : Act sig)
    (rest : List (Act sig)) (event : StrategyEvent)
    (shape : [⟨Op.recv sid rx, answer⟩] = first ++ act :: rest) (_ : received act = some event) :
    act.op = Op.recv sid (rx + (first.filterMap received).length) := by
  rcases List.cons_eq_append_iff.mp shape with ⟨rfl, same⟩ | ⟨more, _, empty⟩
  · obtain ⟨rfl, _⟩ := List.cons.inj same
    rfl
  · simp at empty

theorem live_forwards {rx polls : Nat} (path : Proc.Path (liveTask sid rx polls) acts last) :
    Forwards sid rx [] acts last := by
  induction polls generalizing rx acts with
  | zero =>
    obtain ⟨rfl, rfl⟩ := path_done path
    exact .ended
  | succ polls ih =>
    rcases path_act path with ⟨rfl, rfl⟩ | ⟨answer, rest, rfl, answered⟩
    · refine ⟨List.prefix_refl _, fun _ => rfl, by simp, ?_, by simp⟩
      intro target position onward waits
      obtain ⟨same, _⟩ := Proc.act.inj waits
      obtain ⟨rfl, rfl⟩ := Op.recv.inj same
      exact ⟨rfl, rfl⟩
    · cases answer with
      | event event =>
        rcases path_act answered with ⟨rfl, rfl⟩ | ⟨_, rest, rfl, continues⟩
        · refine ⟨by simp [List.filterMap_cons], fun rests => rests.elim, places_single, ?_, by simp⟩
          intro target position onward waits
          cases (Proc.act.inj waits).1
        · exact (ih continues).receive
      | lagged missed =>
        obtain ⟨rfl, rfl⟩ := path_done answered
        exact ⟨List.prefix_refl _, fun _ => rfl, places_single, by simp, by simp⟩
      | closed =>
        obtain ⟨rfl, rfl⟩ := path_done answered
        exact ⟨List.prefix_refl _, fun _ => rfl, places_single, by simp, by simp⟩

/-- A replayed event goes out before anything else. -/
theorem Forwards.replay {rx : Nat} {kept : List StrategyEvent} {event : StrategyEvent}
    (later : Forwards sid rx kept acts last) :
    Forwards sid rx (event :: kept) (⟨Op.forward event, ()⟩ :: acts) last := by
  refine ⟨?_, ?_, ?_, ?_, ?_⟩
  · simpa [List.filterMap_cons] using later.ordered
  · intro rests
    simpa [List.filterMap_cons] using later.resting rests
  · intro first act rest other shape takes
    cases first with
    | nil =>
      obtain ⟨same, _⟩ := List.cons.inj shape
      rw [← same] at takes
      cases takes
    | cons head first =>
      obtain ⟨same, tail⟩ := List.cons.inj shape
      rw [later.places first act rest other tail takes, ← same]
      simp [List.filterMap_cons]
  · intro target position onward waits
    simpa [List.filterMap_cons] using later.next target position onward waits
  · intro act member
    rcases List.mem_cons.mp member with rfl | member
    · exact .inl ⟨_, rfl⟩
    · exact later.only act member

theorem replay_forwards {rx polls watermark : Nat} {replay : List StrategyEvent}
    (path : Proc.Path (replayTask sid rx polls watermark replay) acts last) :
    Forwards sid rx (upTo watermark replay) acts last := by
  induction replay generalizing acts with
  | nil => exact live_forwards path
  | cons event rest ih =>
    by_cases beyond : (event.header.any fun header => watermark < header.sequence) = true
    · have skips : upTo watermark (event :: rest) = upTo watermark rest := by
        simp [upTo, beyond]
      have same : replayTask sid rx polls watermark (event :: rest) =
          replayTask sid rx polls watermark rest := by
        simp [replayTask, forwardReplay, beyond]
      rw [skips]
      rw [same] at path
      exact ih path
    · have keeps : upTo watermark (event :: rest) = event :: upTo watermark rest := by
        simp [upTo, beyond]
      have forwards : replayTask sid rx polls watermark (event :: rest) =
          .act (.forward event) fun _ => replayTask sid rx polls watermark rest := by
        simp only [replayTask, forwardReplay, beyond]
        rfl
      rw [keeps]
      rw [forwards] at path
      rcases path_act path with ⟨rfl, rfl⟩ | ⟨_, tail, rfl, continues⟩
      · refine ⟨by simp, fun rests => rests.elim, by simp, ?_, by simp⟩
        intro target position onward waits
        cases (Proc.act.inj waits).1
      · exact (ih continues).replay

/-- The actions of a stream up to its replay, and what it does with it. -/
theorem stream_path {manager : SessionManager} {token : String} {n polls : Nat}
    {ring : List StrategyEvent}
    (path : Proc.Path ((Call.stream sid token polls).task manager) acts last)
    (parses : afterSeq token = some n) (reads : (⟨Op.readRing sid, ring⟩ : Act sig) ∈ acts) :
    ∃ rx watermark replay tail,
      acts = ⟨Op.get sid, true⟩ :: ⟨Op.subscribe sid, rx⟩ :: ⟨Op.currentSeq sid, watermark⟩ ::
        ⟨Op.lockRing sid, ()⟩ :: ⟨Op.readRing sid, replay⟩ :: tail ∧
      Forwards sid rx (upTo watermark (replay.filter fun event => n < event.sequence)) tail last := by
  rcases path_act path with ⟨rfl, _⟩ | ⟨registered, first, rfl, opened⟩
  · simp at reads
  cases registered with
  | false =>
    obtain ⟨rfl, _⟩ := path_done opened
    simp at reads
  | true =>
    simp only [Proc.bind, if_true, parses] at opened
    rcases path_act opened with ⟨rfl, _⟩ | ⟨rx, second, rfl, subscribed⟩
    · simp at reads
    rcases path_act subscribed with ⟨rfl, _⟩ | ⟨watermark, third, rfl, marked⟩
    · simp at reads
    rcases path_act marked with ⟨rfl, _⟩ | ⟨_, fourth, rfl, locked⟩
    · simp at reads
    rcases path_act locked with ⟨rfl, _⟩ | ⟨replay, tail, rfl, replayed⟩
    · simp at reads
    exact ⟨rx, watermark, replay, tail, rfl, replay_forwards replayed⟩

end Paths

/-- One resumed stream in a history: where it subscribed and got position `rx`, where
it read the watermark, and where it read the ring for its replay. -/
structure Resumption {ι : Type} (reader : ι) (sid : String) (history : List (Entry sig ι)) where
  before : List (Entry sig ι)
  rx : Nat
  toWatermark : List (Entry sig ι)
  watermark : Nat
  toReplay : List (Entry sig ι)
  ring : List StrategyEvent
  rest : List (Entry sig ι)
  shape : history = before ++ Entry.of reader (Op.subscribe sid) rx ::
    (toWatermark ++ Entry.of reader (Op.currentSeq sid) watermark ::
      (toReplay ++ Entry.of reader (Op.readRing sid) ring :: rest))

namespace Resumption

variable {ι : Type} {reader : ι} {sid : String} {history : List (Entry sig ι)}

/-- The history up to the read of the watermark. -/
def atWatermark (resumption : Resumption reader sid history) : List (Entry sig ι) :=
  resumption.before ++ Entry.of reader (Op.subscribe sid) resumption.rx :: resumption.toWatermark

/-- The history up to the read of the ring. -/
def atReplay (resumption : Resumption reader sid history) : List (Entry sig ι) :=
  resumption.atWatermark ++ Entry.of reader (Op.currentSeq sid) resumption.watermark ::
    resumption.toReplay

theorem split_before (resumption : Resumption reader sid history) :
    ∃ post, history = resumption.before ++ Entry.of reader (Op.subscribe sid) resumption.rx :: post :=
  ⟨_, resumption.shape⟩

theorem split_watermark (resumption : Resumption reader sid history) :
    ∃ post, history = resumption.atWatermark ++
      Entry.of reader (Op.currentSeq sid) resumption.watermark :: post :=
  ⟨resumption.toReplay ++ Entry.of reader (Op.readRing sid) resumption.ring :: resumption.rest,
    by simp [resumption.shape, atWatermark]⟩

theorem split_replay (resumption : Resumption reader sid history) :
    history = resumption.atReplay ++
      Entry.of reader (Op.readRing sid) resumption.ring :: resumption.rest := by
  simp [resumption.shape, atReplay, atWatermark]

end Resumption

/-- What the subscriber forwarded, in order. -/
def delivered {ι : Type} [DecidableEq ι] (reader : ι) (history : List (Entry sig ι)) :
    List StrategyEvent :=
  (own reader history).filterMap forwarded

/-- How far into the broadcasts the subscriber has come. -/
def reached {ι : Type} [DecidableEq ι] {reader : ι} {sid : String} {history : List (Entry sig ι)}
    (resumption : Resumption reader sid history) : Nat :=
  resumption.rx + ((own reader history).filterMap received).length

/-- A list has only one place for an element that nothing else in it resembles. -/
theorem split_unique {α : Type} (p : α → Prop) (front : List α) {xs ys back : List α} {a b : α}
    (same : xs ++ a :: ys = front ++ b :: back) (hit : p a) (before : ∀ x ∈ front, ¬ p x)
    (after : ∀ y ∈ back, ¬ p y) : xs = front ∧ a = b ∧ ys = back := by
  rcases List.append_eq_append_iff.mp same with ⟨middle, begins, ends⟩ | ⟨middle, begins, ends⟩
  · cases middle with
    | nil =>
      obtain ⟨rfl, rfl⟩ := List.cons.inj ends
      exact ⟨by simpa using begins.symm, rfl, rfl⟩
    | cons head rest =>
      obtain ⟨rfl, _⟩ := List.cons.inj ends
      exact absurd hit (before a (by simp [begins]))
  · cases middle with
    | nil =>
      obtain ⟨rfl, rfl⟩ := List.cons.inj ends
      exact ⟨by simpa using begins, rfl, rfl⟩
    | cons head rest =>
      obtain ⟨rfl, tail⟩ := List.cons.inj ends
      exact absurd hit (after a (by simp [tail]))

theorem prefix_snoc {α : Type} {xs ys : List α} {a : α} (begins : xs <+: ys)
    (next : ys[xs.length]? = some a) : xs ++ [a] <+: ys := by
  obtain ⟨rest, rfl⟩ := begins
  cases rest with
  | nil => simp at next
  | cons head tail =>
    obtain rfl : head = a := by simpa using next
    exact ⟨tail, by simp⟩

theorem Plane.exec_recv {plane after : Plane} {sid : String} {position : Nat} {choice : Choice}
    {event : StrategyEvent}
    (fires : plane.exec (.recv sid position) choice = some (.event event, after)) :
    (plane.bus sid).sent[position]? = some event := by
  simp only [Plane.exec] at fires
  split at fires
  · cases fires
  · rename_i handle found
    split at fires
    · cases fires
    · split at fires
      · rename_i taken at_position
        obtain ⟨same, _⟩ := Prod.mk.inj (Option.some.inj fires)
        obtain rfl := Recv.event.inj same
        simpa [Plane.bus, found, SessionHandle.bus] using at_position
      · split at fires
        all_goals cases fires

theorem Plane.exec_subscribe {plane after : Plane} {sid : String} {rx : Nat} {choice : Choice}
    (fires : plane.exec (.subscribe sid) choice = some (rx, after)) :
    rx = (plane.bus sid).sent.length := by
  obtain ⟨handle, found, same⟩ := Option.map_eq_some_iff.mp fires
  obtain ⟨rfl, _⟩ := Prod.mk.inj same
  simp [Plane.bus, found, SessionHandle.bus]

theorem Plane.exec_currentSeq {plane after : Plane} {sid : String} {watermark : Nat}
    {choice : Choice} (fires : plane.exec (.currentSeq sid) choice = some (watermark, after)) :
    watermark = (plane.bus sid).seq := by
  obtain ⟨handle, found, same⟩ := Option.map_eq_some_iff.mp fires
  obtain ⟨rfl, _⟩ := Prod.mk.inj same
  simp [Plane.bus, found, SessionHandle.bus]

theorem Plane.exec_readRing {plane after : Plane} {sid : String} {ring : List StrategyEvent}
    {choice : Choice} (fires : plane.exec (.readRing sid) choice = some (ring, after)) :
    ring = (plane.bus sid).ring := by
  simp only [Plane.exec] at fires
  split at fires
  · cases fires
  · rename_i handle found
    obtain ⟨rfl, _⟩ := Prod.mk.inj (Option.some.inj fires)
    simp [Plane.bus, found, SessionHandle.bus]

/-- The receiver takes the event at its position unless it has fallen behind. -/
theorem Plane.recv_ready {plane : Plane} {sid : String} {position : Nat} {event : StrategyEvent}
    (found : (plane.bus sid).sent[position]? = some event)
    (near : (plane.bus sid).sent.length ≤ position + EVENT_CHANNEL_CAPACITY) :
    plane.exec (.recv sid position) .none = some (.event event, plane) := by
  cases present : plane.handles sid with
  | none => simp [Plane.bus, present] at found
  | some handle =>
    simp only [Plane.bus, present, SessionHandle.bus] at found near
    have current : ¬ EVENT_CHANNEL_CAPACITY < handle.sent.length - position := by omega
    simp [Plane.exec, present, found, current]

section Subscriber

variable {ι : Type} [DecidableEq ι] {manager : SessionManager} {plane : Plane} {calls : ι → Call}
  {history : List (Entry sig ι)} {config : Config machine ι Outcome} {sid : String} {reader : ι}

/-- A subscriber that asks for one position after the other receives the broadcasts
in their order. -/
theorem received_prefix {ok : machine.State → Entry sig ι → Prop} {before after : machine.State}
    {rx : Nat} (execution : Execution machine ok before history after)
    (places : ∀ first act rest event, own reader history = first ++ act :: rest →
      received act = some event → act.op = Op.recv sid (rx + (first.filterMap received).length)) :
    (own reader history).filterMap received <+: (Plane.bus after sid).sent.drop rx := by
  induction execution with
  | start => exact List.nil_prefix
  | @step history task op ans last after earlier choice fires meets ih =>
    have recorded := Plane.exec_bus fires sid
    have grows : (Plane.bus last sid).sent.drop rx <+: (Plane.bus after sid).sent.drop rx := by
      rw [recorded]
      exact List.IsPrefix.drop (List.prefix_append _ _) rx
    rw [own_append] at places ⊢
    have so_far := ih fun first act rest event shape takes =>
      places first act (rest ++ own reader [Entry.of task op ans]) event (by simp [shape]) takes
    by_cases mine : task = reader
    · subst mine
      rw [own_singleton_self] at places ⊢
      cases takes : received ⟨op, ans⟩ with
      | none => simpa [takes] using so_far.trans grows
      | some event =>
        obtain rfl : op = Op.recv sid (rx + ((own task history).filterMap received).length) :=
          places _ _ [] event rfl takes
        obtain rfl : ans = Recv.event event := by
          cases ans with
          | event other => simpa using takes
          | lagged missed => cases takes
          | closed => cases takes
        have found := @Plane.exec_recv last after sid _ choice event fires
        rw [← List.getElem?_drop] at found
        simpa [takes] using (prefix_snoc so_far found).trans grows
    · rw [own_singleton_of_ne mine]
      simpa using so_far.trans grows

/-- A hand-over that no publisher disturbs. Publishers push and broadcast in the order
of their numbers, so that each publish of the run has a place in it. A publish numbered
above `n` that had its number before the watermark was read and was pushed before the
ring was read had been broadcast before the subscription; and nothing above `n` that the
ring held at the subscription was evicted before the ring was read. -/
structure Undisturbed (resumption : Resumption reader sid history) (n : Nat) (bus : Bus) :
    Prop where
  pushes : InTurn (numbered sid) (sequenceOf (pushed sid)) history
  fanOuts : InTurn (numbered sid) (sequenceOf (fannedOut sid)) history
  handedOver : ∀ place, n < bus.seq + place + 1 →
    place < (shown (numbered sid) resumption.atWatermark).length →
    place < (shown (pushed sid) resumption.atReplay).length →
    place < (shown (fannedOut sid) resumption.before).length
  retained : ∀ event ∈ (bus.along sid resumption.before).ring, n < event.sequence →
    event ∈ (bus.along sid resumption.atReplay).ring

/-- What a subscriber that resumes after `n` gets: events in the order of their numbers;
of those above `n` that the ring held at the subscription or that were broadcast since,
each one it has come to exactly once; and the next one, unless the receiver lagged. -/
structure ExactlyOnce (resumption : Resumption reader sid history) (n : Nat) (bus : Bus)
    (config : Config machine ι Outcome) : Prop where
  increasing : ((delivered reader history).map StrategyEvent.sequence).Pairwise (· < ·)
  once : Resting (config.procs reader) → ∀ event, n < event.sequence →
    event ∈ (bus.along sid resumption.before).ring ∨
      event ∈ (Plane.bus config.state sid).sent.drop resumption.rx →
    event ∈ (Plane.bus config.state sid).sent.take (reached resumption) →
    (delivered reader history).count event = 1
  flows : ∀ position onward event, config.procs reader = .act (.recv sid position) onward →
    position = reached resumption ∧
      ((Plane.bus config.state sid).sent[position]? = some event →
        (Plane.bus config.state sid).sent.length ≤ position + EVENT_CHANNEL_CAPACITY →
        Plane.exec config.state (.recv sid position) .none = some (.event event, config.state))

/-- The subscriber's actions are those of one stream, so each of the three places that a
resumption names is the only one of its kind. -/
theorem Resumption.forwards (resumption : Resumption reader sid history)
    (run : Run (pool manager plane calls) history config) {token : String} {n polls : Nat}
    (streams : calls reader = .stream sid token polls) (parses : afterSeq token = some n) :
    own reader history = [⟨Op.get sid, true⟩, ⟨Op.subscribe sid, resumption.rx⟩,
        ⟨Op.currentSeq sid, resumption.watermark⟩, ⟨Op.lockRing sid, ()⟩,
        ⟨Op.readRing sid, resumption.ring⟩] ++ own reader resumption.rest ∧
      Forwards sid resumption.rx
        (upTo resumption.watermark (resumption.ring.filter fun event => n < event.sequence))
        (own reader resumption.rest) (config.procs reader) := by
  have path := run.path reader
  have program : (pool manager plane calls).procs reader =
      (Call.stream sid token polls).task manager := by
    simp [pool, streams]
  rw [program] at path
  have shape : own reader history =
      own reader resumption.before ++ ⟨Op.subscribe sid, resumption.rx⟩ ::
        (own reader resumption.toWatermark ++ ⟨Op.currentSeq sid, resumption.watermark⟩ ::
          (own reader resumption.toReplay ++ ⟨Op.readRing sid, resumption.ring⟩ ::
            own reader resumption.rest)) := by
    nth_rewrite 1 [resumption.shape]
    simp only [own_append, own_cons_self]
  have reads : (⟨Op.readRing sid, resumption.ring⟩ : Act sig) ∈ own reader history := by
    simp [shape]
  obtain ⟨rx, watermark, replay, tail, acts, forwards⟩ := stream_path path parses reads
  have quiet : ∀ act ∈ tail, act.op ≠ Op.subscribe sid ∧ act.op ≠ Op.currentSeq sid ∧
      act.op ≠ Op.readRing sid := by
    intro act member
    rcases forwards.only act member with ⟨event, same⟩ | ⟨target, position, same⟩
    all_goals simp [same]
  have aligned := shape.symm.trans acts
  obtain ⟨_, first, later⟩ := split_unique (fun act : Act sig => act.op = Op.subscribe sid)
    [⟨Op.get sid, true⟩] aligned rfl (by simp) (by simpa using fun act member => (quiet act member).1)
  obtain ⟨_, second, last⟩ := split_unique (fun act : Act sig => act.op = Op.currentSeq sid)
    [] later rfl (by simp) (by simpa using fun act member => (quiet act member).2.1)
  obtain ⟨_, third, rest⟩ := split_unique (fun act : Act sig => act.op = Op.readRing sid)
    [⟨Op.lockRing sid, ()⟩] last rfl (by simp)
    (by simpa using fun act member => (quiet act member).2.2)
  obtain rfl : resumption.rx = rx := by simpa using first
  obtain rfl : resumption.watermark = watermark := by simpa using second
  obtain rfl : resumption.ring = replay := by simpa using third
  rw [← rest] at acts forwards
  exact ⟨acts, forwards⟩

/-- Live events come in the order of their broadcast, from the position of the
subscription on. -/
theorem Resumption.received_prefix (resumption : Resumption reader sid history)
    (run : Run (pool manager plane calls) history config) {token : String} {n polls : Nat}
    (streams : calls reader = .stream sid token polls) (parses : afterSeq token = some n) :
    (own reader history).filterMap received <+:
      (Plane.bus config.state sid).sent.drop resumption.rx := by
  obtain ⟨acts, forwards⟩ := resumption.forwards run streams parses
  apply Session.received_prefix (pool_execution run)
  intro first act rest event shape takes
  rw [acts] at shape
  rcases List.append_eq_append_iff.mp shape with ⟨middle, begins, ends⟩ | ⟨middle, begins, ends⟩
  · have place := forwards.places middle act rest event ends takes
    rw [place, begins]
    rfl
  · cases middle with
    | nil =>
      have place := forwards.places [] act rest event (by simpa using ends.symm) takes
      rw [place]
      rw [List.append_nil] at begins
      simp [← begins, received]
    | cons head middle =>
      obtain ⟨rfl, _⟩ := List.cons.inj ends
      have early : act ∈ first ++ act :: middle := by simp
      rw [← begins] at early
      simp only [List.mem_cons, List.not_mem_nil, or_false] at early
      rcases early with rfl | rfl | rfl | rfl | rfl
      all_goals cases takes

theorem Stages.unbroken_before {pre post : List (Entry sig ι)}
    {view : Act sig → Option StrategyEvent}
    (stages : Stages (numbered sid) (sequenceOf view)) (quiet : (plane.bus sid).Quiet)
    (run : Run (pool manager plane calls) (pre ++ post) config)
    (room : (plane.bus sid).seq + (shown (numbered sid) (pre ++ post)).length < u64Size)
    (turns : InTurn (numbered sid) (sequenceOf view) (pre ++ post)) :
    Unbroken ((plane.bus sid).sent ++ shown view pre) := by
  obtain ⟨middle, earlier, -⟩ := run.split
  rw [shown_append, List.length_append] at room
  exact (stages.unbroken earlier quiet (by omega) turns.before).1

/-- What the three reads of a resumption were answered. -/
theorem Resumption.answers (resumption : Resumption reader sid history)
    (run : Run (pool manager plane calls) history config) (quiet : (plane.bus sid).Quiet)
    (room : (plane.bus sid).seq + (shown (numbered sid) history).length < u64Size) :
    resumption.rx = (plane.bus sid).seq + (shown (fannedOut sid) resumption.before).length ∧
      resumption.watermark =
        (plane.bus sid).seq + (shown (numbered sid) resumption.atWatermark).length ∧
      resumption.ring = ((plane.bus sid).along sid resumption.atReplay).ring := by
  have execution := pool_execution run
  refine ⟨?_, ?_, ?_⟩
  · obtain ⟨post, shape⟩ := resumption.split_before
    rw [shape] at execution
    obtain ⟨middle, next, choice, earlier, fires, _, _⟩ := act_at execution
    rw [Plane.exec_subscribe fires, execution_bus earlier, Bus.along_sent, List.length_append,
      quiet.counted]
  · obtain ⟨post, shape⟩ := resumption.split_watermark
    rw [shape] at execution room
    obtain ⟨middle, next, choice, earlier, fires, _, _⟩ := act_at execution
    rw [shown_append, List.length_append] at room
    rw [Plane.exec_currentSeq fires]
    exact (execution_numbers earlier (by omega)).2
  · rw [resumption.split_replay] at execution
    obtain ⟨middle, next, choice, earlier, fires, _, _⟩ := act_at execution
    rw [Plane.exec_readRing fires, execution_bus earlier]

/-- What was broadcast by the subscription had been numbered by the watermark. -/
theorem Resumption.rx_le_watermark (resumption : Resumption reader sid history)
    (run : Run (pool manager plane calls) history config) (quiet : (plane.bus sid).Quiet)
    (room : (plane.bus sid).seq + (shown (numbered sid) history).length < u64Size) :
    resumption.rx ≤ resumption.watermark := by
  obtain ⟨subscribed, marked, _⟩ := resumption.answers run quiet room
  obtain ⟨post, shape⟩ := resumption.split_before
  rw [shape] at run
  obtain ⟨middle, earlier, -⟩ := run.split
  have numberedFirst := (numbering_before_fanOut sid).shown_length earlier
  rw [shown_sequenceOf, List.length_map] at numberedFirst
  have later : (shown (numbered sid) resumption.before).length ≤
      (shown (numbered sid) resumption.atWatermark).length := by
    rw [Resumption.atWatermark, shown_append, List.length_append]
    omega
  omega

section Undisturbed

variable {resumption : Resumption reader sid history} {n : Nat}
  (run : Run (pool manager plane calls) history config) (quiet : (plane.bus sid).Quiet)
  (room : (plane.bus sid).seq + (shown (numbered sid) history).length < u64Size)
  (undisturbed : Undisturbed resumption n (plane.bus sid))

include run quiet room undisturbed

/-- The replay is in order, and all of it was broadcast before the subscription. -/
theorem Undisturbed.replayed :
    let kept := upTo resumption.watermark (resumption.ring.filter fun event => n < event.sequence)
    (kept.map StrategyEvent.sequence).Pairwise (· < ·) ∧
      ∀ event ∈ kept, event.sequence ≤ resumption.rx := by
  intro kept
  obtain ⟨subscribed, marked, snapshot⟩ := resumption.answers run quiet room
  have pushes := undisturbed.pushes
  rw [resumption.split_replay] at run room pushes
  have unbroken := (numbering_before_push sid).unbroken_before quiet run room pushes
  have ring := @Bus.along_ring _ sid _ resumption.atReplay _ quiet.newest
  rw [← snapshot] at ring
  constructor
  · have ordered : (resumption.ring.map StrategyEvent.sequence).Pairwise (· < ·) := by
      rw [ring, unbroken.sequences_rtake]
      exact List.pairwise_lt_range'
    have sublist : kept.Sublist resumption.ring := List.filter_sublist.trans List.filter_sublist
    exact ordered.sublist (sublist.map _)
  · intro event member
    obtain ⟨selected, covered⟩ := mem_upTo.mp member
    obtain ⟨listed, wanted⟩ := List.mem_filter.mp selected
    rw [ring] at listed
    have window := (unbroken.sequence_mem_rtake _ _).mp ⟨event, listed, rfl⟩
    rw [List.length_append, quiet.counted] at window
    have above : n < event.sequence := by simpa using wanted
    -- A number beyond the position of the receiver has a place among the publishes of the run.
    by_contra later
    have place := undisturbed.handedOver (event.sequence - (plane.bus sid).seq - 1) (by omega)
      (by omega) (by omega)
    omega

/-- What is broadcast from the subscription on is in order and follows the replay. -/
theorem Undisturbed.live :
    ((Plane.bus config.state sid).sent.drop resumption.rx).map StrategyEvent.sequence =
      List.range' (resumption.rx + 1) ((Plane.bus config.state sid).sent.length - resumption.rx) := by
  have unbroken := ((numbering_before_fanOut sid).unbroken run quiet room undisturbed.fanOuts).1
  rw [execution_bus (pool_execution run), Bus.along_sent]
  exact unbroken.sequences_drop _

/-- Replayed and received events together are in the order of their numbers. -/
theorem Undisturbed.ordered {taken : List StrategyEvent}
    (takes : taken <+: (Plane.bus config.state sid).sent.drop resumption.rx) :
    ((upTo resumption.watermark (resumption.ring.filter fun event => n < event.sequence) ++
      taken).map StrategyEvent.sequence).Pairwise (· < ·) := by
  obtain ⟨replayed, early⟩ := undisturbed.replayed run quiet room
  have sublist := takes.sublist.map StrategyEvent.sequence
  rw [undisturbed.live run quiet room] at sublist
  have climbs : (List.range' (resumption.rx + 1)
      ((Plane.bus config.state sid).sent.length - resumption.rx)).Pairwise (· < ·) :=
    List.pairwise_lt_range'
  rw [List.map_append, List.pairwise_append]
  refine ⟨replayed, climbs.sublist sublist, ?_⟩
  intro first old second new
  obtain ⟨event, member, rfl⟩ := List.mem_map.mp old
  have behind := early event member
  have ahead := List.mem_range'_1.mp (sublist.subset new)
  omega

/-- An offered event that was broadcast before the subscription is replayed. -/
theorem Undisturbed.covers {event : StrategyEvent} (above : n < event.sequence)
    (offered : event ∈ ((plane.bus sid).along sid resumption.before).ring ∨
      event ∈ (Plane.bus config.state sid).sent.drop resumption.rx)
    (old : event ∈ (Plane.bus config.state sid).sent.take resumption.rx) :
    event ∈ upTo resumption.watermark (resumption.ring.filter fun event => n < event.sequence) := by
  have unbroken := ((numbering_before_fanOut sid).unbroken run quiet room undisturbed.fanOuts).1
  rw [← Bus.along_sent, ← execution_bus (pool_execution run)] at unbroken
  have behind := unbroken.sequence_take old
  have held : event ∈ ((plane.bus sid).along sid resumption.before).ring := by
    rcases offered with held | new
    · exact held
    · have listed := @List.mem_map_of_mem _ _ _ _ StrategyEvent.sequence new
      rw [undisturbed.live run quiet room, List.mem_range'_1] at listed
      omega
  have kept := undisturbed.retained event held above
  rw [← (resumption.answers run quiet room).2.2] at kept
  have marked := resumption.rx_le_watermark run quiet room
  exact mem_upTo.mpr ⟨List.mem_filter.mpr ⟨kept, by simpa using above⟩, by omega⟩

end Undisturbed

/-- In every run in which no publisher disturbs the hand-over, a subscriber that resumes
after `n` gets every event exactly once and in order. -/
theorem stream_exactly_once {resumption : Resumption reader sid history} {token : String}
    {n polls : Nat} (run : Run (pool manager plane calls) history config)
    (quiet : (plane.bus sid).Quiet)
    (room : (plane.bus sid).seq + (shown (numbered sid) history).length < u64Size)
    (streams : calls reader = .stream sid token polls) (parses : afterSeq token = some n)
    (undisturbed : Undisturbed resumption n (plane.bus sid)) :
    ExactlyOnce resumption n (plane.bus sid) config := by
  obtain ⟨acts, forwards⟩ := resumption.forwards run streams parses
  have takes := resumption.received_prefix run streams parses
  have ordered := undisturbed.ordered run quiet room takes
  have forwardedRest : delivered reader history = (own reader resumption.rest).filterMap forwarded := by
    rw [delivered, acts]
    rfl
  have receivedRest : (own reader history).filterMap received =
      (own reader resumption.rest).filterMap received := by
    rw [acts]
    rfl
  rw [receivedRest] at takes ordered
  refine ⟨?_, ?_, ?_⟩
  · rw [forwardedRest]
    exact ordered.sublist (forwards.ordered.sublist.map _)
  · intro rests event above offered come
    rw [forwardedRest, forwards.resting rests]
    have distinct := List.Nodup.of_map _ (ordered.imp Nat.ne_of_lt)
    apply List.count_eq_one_of_mem distinct
    rw [reached, receivedRest, List.take_add, List.mem_append,
      ← List.prefix_iff_eq_take.mp takes] at come
    rw [List.mem_append]
    rcases come with old | new
    · exact .inl (undisturbed.covers run quiet room above offered old)
    · exact .inr new
  · intro position onward event waits
    obtain ⟨_, rfl⟩ := forwards.next sid position onward waits
    refine ⟨by rw [reached, receivedRest], ?_⟩
    intro found near
    exact Plane.recv_ready found near

end Subscriber

/-- A publisher, then a subscriber from the start, then another publisher. -/
def resumeCalls : Fin 3 → Call
  | 1 => .stream "s1" "" 5
  | _ => .publish "s1" ⟨none, none, ""⟩

/-- One event is replayed and one arrives live. -/
theorem stream_exactly_once_handed_over :
    ∃ history config, ∃ resumption : Resumption 1 "s1" history,
      Run (pool mockManager (Plane.single (.inState .active [])) resumeCalls) history config ∧
      (delivered 1 history).map StrategyEvent.sequence = [1, 2] ∧ Resting (config.procs 1) ∧
      ExactlyOnce resumption 0 ((Plane.single (.inState .active [])).bus "s1") config := by
  obtain ⟨history, config, resumption, run, numbers, order, rests, pushes, fanOuts, marked, pushed,
      sent, kept⟩ :
      ∃ history config, ∃ resumption : Resumption 1 "s1" history,
        Run (pool mockManager (Plane.single (.inState .active [])) resumeCalls) history config ∧
        (shown (numbered "s1") history).length = 2 ∧
        (delivered 1 history).map StrategyEvent.sequence = [1, 2] ∧ Resting (config.procs 1) ∧
        takesTurns (numbered "s1") (sequenceOf (pushed "s1")) [] history = true ∧
        takesTurns (numbered "s1") (sequenceOf (fannedOut "s1")) [] history = true ∧
        (shown (numbered "s1") resumption.atWatermark).length = 1 ∧
        (shown (pushed "s1") resumption.atReplay).length = 1 ∧
        (shown (fannedOut "s1") resumption.before).length = 1 ∧
        (((Plane.single (.inState .active [])).bus "s1").along "s1" resumption.before).ring =
          (((Plane.single (.inState .active [])).bus "s1").along "s1" resumption.atReplay).ring :=
    ⟨_, _, ⟨(published "s1" ⟨none, none, ""⟩ 1).map (Entry.mk 0) ++ [Entry.of 1 (Op.get "s1") true],
        1, [], 1, [Entry.of 1 (Op.lockRing "s1") ()], [stamp ⟨none, none, ""⟩ 1], _, rfl⟩,
      @Run.of_replay sig machine (Fin 3) _ Outcome _ _ _
        (List.flatten [List.replicate 4 (0, .none), List.replicate 6 (1, .none),
          List.replicate 4 (2, .none), List.replicate 2 (1, .none)]) rfl,
      rfl, rfl, by trivial, rfl, rfl, rfl, rfl, rfl, rfl⟩
  have quiet : ((Plane.single (.inState .active [])).bus "s1").Quiet := Bus.quiet_attach
  have room : ((Plane.single (.inState .active [])).bus "s1").seq +
      (shown (numbered "s1") history).length < u64Size := by
    rw [numbers]
    decide
  refine ⟨history, config, resumption, run, order, rests,
    stream_exactly_once run quiet room rfl rfl ⟨.of_takesTurns pushes, .of_takesTurns fanOuts, ?_, ?_⟩⟩
  · intro place _ early _
    rw [marked] at early
    rw [sent]
    exact early
  · intro event held _
    rw [← kept]
    exact held

/-- A publisher and a subscriber from the start. -/
def overlapCalls : Bool → Call
  | true => .publish "s1" ⟨none, none, ""⟩
  | false => .stream "s1" "" 5

/-- The publisher has its number when the watermark is read and broadcasts after the
subscription: its event is replayed and received as well. -/
theorem event_delivered_twice :
    ∃ history config, ∃ resumption : Resumption false "s1" history,
      Run (pool mockManager (Plane.single (.inState .active [])) overlapCalls) history config ∧
      ∃ event ∈ (Plane.bus config.state "s1").sent.drop resumption.rx, 0 < event.sequence ∧
        (delivered false history).count event = 2 ∧
        ¬ ((delivered false history).map StrategyEvent.sequence).Pairwise (· < ·) :=
  ⟨_, _, ⟨[Entry.of true (Op.nextSeq "s1") 1, Entry.of false (Op.get "s1") true], 0, [], 1,
      [Entry.of true (Op.lockRing "s1") (),
        Entry.of true (Op.pushRing "s1" (stamp ⟨none, none, ""⟩ 1)) (),
        Entry.of true (Op.send "s1" (stamp ⟨none, none, ""⟩ 1)) (),
        Entry.of false (Op.lockRing "s1") ()], [stamp ⟨none, none, ""⟩ 1], _, rfl⟩,
    @Run.of_replay sig machine Bool _ Outcome _ _ _
      (List.flatten [[(true, .none)], List.replicate 3 (false, .none),
        List.replicate 3 (true, .none), List.replicate 5 (false, .none)]) rfl,
    stamp ⟨none, none, ""⟩ 1, by decide, by decide, by decide, by decide⟩

end LongTrader.Session
