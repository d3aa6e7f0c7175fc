import LongTrader.Interleave.Expand
import LongTrader.Market.Subscription
import LongTrader.Overflow.Accounts

/-! A market stream: a poll task for each subscription, which numbers its events from one shared
counter, the policy channel that they all send to, and the consumer. -/

namespace LongTrader.Market

open Interleave Overflow

/-- The atomic actions of a stream: those on its channel, the ticks of the poll tasks, the shared
counters and the fetches from the backend. -/
inductive Op where
  | channel (op : Overflow.Op MarketDataEvent)
  | tick
  | fetchAdd
  | fetchOrderBook (symbol : String)
  | fetchTicker (symbol : String)
  | leave

/-- What a backend answers for a symbol. -/
abbrev Reply (reports : String → String → Bool) (symbol : String) : Type :=
  Except PortError { named : String // reports symbol named = true }

abbrev Op.Ans (reports : String → String → Bool) : Op → Type
  | .channel op => op.Ans String
  | .tick => Unit
  | .fetchAdd => UInt64
  | .fetchOrderBook symbol | .fetchTicker symbol => Reply reports symbol
  | .leave => Nat

abbrev sig (reports : String → String → Bool) : Signature := ⟨Op, Op.Ans reports⟩

/-- The channel, the counter of the sequence numbers and the number of live poll tasks. -/
structure Shared where
  pipe : Pipe String MarketDataEvent
  seq : UInt64
  liveTasks : Nat

section Stream

variable {reports : String → String → Bool}

def Shared.exec (settings : Settings String MarketDataEvent) (shared : Shared)
    (replies : (symbol : String) → Reply reports symbol) :
    (op : Op) → Option (op.Ans reports × Shared)
  | .channel op => (shared.pipe.exec settings op).map fun (ans, pipe) => (ans, { shared with pipe := pipe })
  | .tick => some ((), shared)
  | .fetchAdd => some (shared.seq, { shared with seq := shared.seq + 1 })
  | .fetchOrderBook symbol | .fetchTicker symbol => some (replies symbol, shared)
  | .leave => some (shared.liveTasks, { shared with liveTasks := shared.liveTasks - 1 })

abbrev machine (reports : String → String → Bool) (settings : Settings String MarketDataEvent) :
    Machine (sig reports) :=
  ⟨Shared, (symbol : String) → Reply reports symbol,
    fun op replies shared => shared.exec settings replies op⟩

abbrev perform (op : Op) : Proc (sig reports) (op.Ans reports) := @Proc.perform (sig reports) op

/-- A task of the channel among those of the stream. -/
def onChannel {α : Type} (task : Proc (Overflow.sig String MarketDataEvent) α) :
    Proc (sig reports) α :=
  task.expand fun op => perform (.channel op)

/-- The event that carries a number. -/
def numbered (traceId : String) (next : UInt64) (variant : Variant) : MarketDataEvent :=
  ⟨⟨traceId, next⟩, some variant, toString next⟩

/-- The fetcher of the mock adapter. -/
def mockFetcher (channel : StreamChannel) (symbol : String) :
    Proc (sig reports) (Except PortError (Option MarketDataEvent)) := do
  let previous ← perform .fetchAdd
  return .ok (some (numbered "mock" (previous + 1) (syntheticEvent channel symbol)))

/-- `RemoteAdapter::poll_snapshot`. -/
def pollSnapshot (channel : StreamChannel) (symbol : String) :
    Proc (sig reports) (Except PortError (Option MarketDataEvent)) := do
  let previous ← perform .fetchAdd
  if channel = .orderbook then
    match ← perform (.fetchOrderBook symbol) with
    | .error error => return .error error
    | .ok named => return .ok (some (numbered "" (previous + 1) (snapshotEvent channel named)))
  else
    match ← perform (.fetchTicker symbol) with
    | .error error => return .error error
    | .ok named => return .ok (some (numbered "" (previous + 1) (snapshotEvent channel named)))

def Adapter.fetcher (adapter : Adapter) (sub : StreamSubscription) :
    Proc (sig adapter.reports) (Except PortError (Option MarketDataEvent)) :=
  match adapter with
  | .mock => mockFetcher sub.channel.polled sub.symbol
  | .remote _ => pollSnapshot sub.channel.polled sub.symbol

/-- The end of a poll task: the last one closes the channel. -/
def finishTask : Proc (sig reports) Unit := do
  if (← perform .leave) = 1 then
    let _ ← onChannel (α := Outcome MarketDataEvent) close
  return ()

/-- A poll task of `poll_market_data`, for at most the given number of polls. -/
def pollTask (settings : Settings String MarketDataEvent) (adapter : Adapter) (sub : StreamSubscription) :
    Nat → Proc (sig adapter.reports) Unit
  | 0 => return ()
  | rounds + 1 => do
    if ← perform (.channel .isClosed) then finishTask
    else
      perform .tick
      if ← perform (.channel .isClosed) then finishTask
      else match ← adapter.fetcher sub with
        | .ok (some event) =>
          match ← onChannel (send settings event) with
          | .sent true => pollTask settings adapter sub rounds
          | .sent false => finishTask
          -- A panic of the send ends the task on the spot.
          | _ => return ()
        | .ok none => pollTask settings adapter sub rounds
        | .error _ => pollTask settings adapter sub rounds

/-- The consumer: it receives, and drops its receiver in the end or keeps it. -/
def consume (drops : Bool) : Nat → Proc (sig reports) Unit
  | 0 => if drops then perform (.channel .dropReceiver) else return ()
  | reads + 1 => do
    let _ ← perform (.channel .receive)
    consume drops reads

/-- The tasks of a stream with so many subscriptions. -/
inductive StreamTask (n : Nat) where
  | forwardLoop
  | poll (id : Fin n)
  | consumer
  deriving DecidableEq

/-- `BUFFER_CAP`. -/
def BUFFER_CAP : Nat := 16

/-- The channel of `poll_market_data`. -/
def streamSettings (policy : OverflowPolicy) (debugAssertions : Bool) :
    Settings String MarketDataEvent :=
  policyChannel BUFFER_CAP policy marketEventKey debugAssertions

/-- What is shared when `poll_market_data` returns: a stream with nothing to poll is closed. -/
def Shared.new (tasks : Nat) : Shared :=
  ⟨{ Pipe.new with sourceClosed := decide (tasks = 0), notify := decide (tasks = 0) }, 0, tasks⟩

/-- The stream of `poll_market_data`. -/
def pollMarketData (adapter : Adapter) (request : StreamMarketDataRequest) (policy : OverflowPolicy)
    (debugAssertions : Bool) (rounds reads : Nat) (drops : Bool) :
    Config (machine adapter.reports (streamSettings policy debugAssertions))
      (StreamTask request.polled.length) Unit where
  state := Shared.new request.polled.length
  procs
    | .forwardLoop => (fun _ => ()) <$> onChannel (forwardLoop rounds)
    | .poll id => pollTask (streamSettings policy debugAssertions) adapter (request.polled.get id) rounds
    | .consumer => consume drops reads

/-- The action on the channel that an action of the stream is, if it is one. -/
def channelAct : Act (sig reports) → Option (Act (Overflow.sig String MarketDataEvent))
  | ⟨.channel op, ans⟩ => some ⟨op, ans⟩
  | _ => none

/-- The number that a poll task has taken and not yet settled, after one more action: it is sent, or
its fetch fails, or the receiver turns out to be gone. -/
def pendingAfter (pending : Option UInt64) : Act (sig reports) → Option UInt64
  | ⟨.fetchAdd, previous⟩ => some (previous + 1)
  | ⟨.fetchOrderBook _, .error _⟩ => none
  | ⟨.fetchTicker _, .error _⟩ => none
  | ⟨.channel (.push _), _⟩ => none
  | ⟨.channel (.send _), _⟩ => none
  | ⟨.channel .isClosed, true⟩ => none
  | _ => pending

def pending (acts : List (Act (sig reports))) : Option UInt64 := acts.foldl pendingAfter none

@[simp] theorem pending_nil : pending ([] : List (Act (sig reports))) = none := rfl

@[simp] theorem pending_append (first second : List (Act (sig reports))) :
    pending (first ++ second) = second.foldl pendingAfter (pending first) := by
  simp [pending]

end Stream

section Programs

variable {settings : Settings String MarketDataEvent} {adapter : Adapter} {sub : StreamSubscription}
  {α β : Type}

theorem onChannel_justifies {reports : String → String → Bool}
    {task : Proc (Overflow.sig String MarketDataEvent) α}
    {claim : List (Act (Overflow.sig String MarketDataEvent)) →
      Act (Overflow.sig String MarketDataEvent) → Prop}
    {past : List (Act (sig reports))} (justifies : task.Justifies claim (past.filterMap channelAct)) :
    (onChannel task).Justifies (fun past act => ∃ inner, channelAct act = some inner ∧
      claim (past.filterMap channelAct) inner) past := by
  induction task generalizing past with
  | done result => trivial
  | act op next ih =>
    intro ans
    refine ⟨⟨_, rfl, (justifies ans).1⟩, ih ans ?_⟩
    simpa [channelAct] using (justifies ans).2

/-- What a poll task does after what it has done: it takes a number when it has none, and sends the
event that its subscription is answered with under the number it has. -/
def Polls (settings : Settings String MarketDataEvent) (adapter : Adapter) (sub : StreamSubscription)
    (past : List (Act (sig adapter.reports))) (act : Act (sig adapter.reports)) : Prop :=
  match act.op with
  | .channel (.push event) => settings.policy ≠ .block ∧ pending past = some event.header.sequence ∧
      ∃ variant, event.event = some variant ∧ adapter.Answers sub variant
  | .channel (.send event) => settings.policy = .block ∧ pending past = some event.header.sequence ∧
      ∃ variant, event.event = some variant ∧ adapter.Answers sub variant
  | .fetchAdd => pending past = none
  | .channel .isClosed | .channel .notifyOne | .channel .storeSourceClosed => True
  | .channel _ => False
  | .tick | .fetchOrderBook _ | .fetchTicker _ | .leave => True

theorem finishTask_justifies (past : List (Act (sig adapter.reports))) :
    finishTask.Justifies (Polls settings adapter sub) past := by
  refine .act (fun _ => trivial) fun before => ?_
  split
  · exact .act (fun _ => trivial) fun _ => .act (fun _ => trivial) fun _ => trivial
  · trivial

theorem snapshot_answers {reports : String → String → Bool} {symbol : String}
    (named : { named : String // reports symbol named = true }) {channel : ChannelValue} :
    (Adapter.remote reports).Answers ⟨channel, symbol⟩ (snapshotEvent channel.polled named) :=
  ⟨named, named.property, rfl⟩

theorem fetcher_justifies {past : List (Act (sig adapter.reports))} (idle : pending past = none) :
    (adapter.fetcher sub).Justifies (Polls settings adapter sub) past := by
  cases adapter with
  | mock => exact .act (fun _ => idle) fun _ => trivial
  | remote reports =>
    refine .act (fun _ => idle) fun previous => ?_
    split
    · refine .act (fun _ => trivial) fun reply => ?_
      cases reply <;> trivial
    · refine .act (fun _ => trivial) fun reply => ?_
      cases reply <;> trivial

/-- What a fetch leaves its task with: an event under the number it took, or nothing. -/
theorem fetcher_completes {past acts : List (Act (sig adapter.reports))}
    {result : Except PortError (Option MarketDataEvent)}
    (finishes : (adapter.fetcher sub).Completes acts result) :
    (∃ event variant, result = .ok (some event) ∧ pending (past ++ acts) = some event.header.sequence ∧
        event.event = some variant ∧ adapter.Answers sub variant) ∨
      (∃ error, result = .error error) ∧ pending (past ++ acts) = none := by
  cases adapter with
  | mock =>
    obtain ⟨previous, rest, rfl, rfl, rfl⟩ := Proc.completes_perform_bind.mp finishes
    exact .inl ⟨_, _, rfl, by simp [pendingAfter, numbered], rfl, rfl⟩
  | remote reports =>
    obtain ⟨previous, rest, rfl, fetches⟩ := Proc.completes_perform_bind.mp finishes
    split at fetches
    · obtain ⟨reply, rest, rfl, ends⟩ := Proc.completes_perform_bind.mp fetches
      cases reply with
      | error error =>
        obtain ⟨rfl, rfl⟩ := ends
        exact .inr ⟨⟨error, rfl⟩, by simp [pendingAfter]⟩
      | ok named =>
        obtain ⟨rfl, rfl⟩ := ends
        exact .inl ⟨_, _, rfl, by simp [pendingAfter, numbered], rfl, snapshot_answers named⟩
    · obtain ⟨reply, rest, rfl, ends⟩ := Proc.completes_perform_bind.mp fetches
      cases reply with
      | error error =>
        obtain ⟨rfl, rfl⟩ := ends
        exact .inr ⟨⟨error, rfl⟩, by simp [pendingAfter]⟩
      | ok named =>
        obtain ⟨rfl, rfl⟩ := ends
        exact .inl ⟨_, _, rfl, by simp [pendingAfter, numbered], rfl, snapshot_answers named⟩

theorem send_justifies {past : List (Act (sig adapter.reports))} {event : MarketDataEvent}
    {variant : Variant} (holds : pending past = some event.header.sequence)
    (shows : event.event = some variant) (answers : adapter.Answers sub variant) :
    (onChannel (send settings event)).Justifies (Polls settings adapter sub) past := by
  unfold send
  cases policy : settings.policy with
  | block => exact .act (fun _ => ⟨policy, holds, variant, shows, answers⟩) fun _ => trivial
  | dropOldest | coalesce =>
    refine .act (fun _ => trivial) fun gone => ?_
    cases gone with
    | true => trivial
    | false =>
      have buffers : settings.policy ≠ .block := by simp [policy]
      have still : pending (past ++ [⟨.channel .isClosed, false⟩]) = some event.header.sequence := by
        simpa [pendingAfter] using holds
      refine .act (fun _ => ⟨buffers, still, variant, shows, answers⟩) fun pushed => ?_
      cases pushed with
      | panicked => trivial
      | kept evicted => exact .act (fun _ => trivial) fun _ => trivial

/-- A send that is accepted settles the number. -/
theorem send_completes {past acts : List (Act (sig adapter.reports))} {event : MarketDataEvent}
    (finishes : (onChannel (send settings event)).Completes acts (.sent true)) :
    pending (past ++ acts) = none := by
  unfold send at finishes
  cases policy : settings.policy with
  | block =>
    rw [policy] at finishes
    obtain ⟨accepted, rest, rfl, rfl, -⟩ := Proc.completes_perform_bind.mp finishes
    simp [pendingAfter]
  | dropOldest | coalesce =>
    rw [policy] at finishes
    obtain ⟨gone, rest, rfl, continues⟩ := Proc.completes_perform_bind.mp finishes
    cases gone with
    | true =>
      obtain ⟨-, impossible⟩ := continues
      cases impossible
    | false =>
      obtain ⟨pushed, rest, rfl, ends⟩ := Proc.completes_perform_bind.mp continues
      cases pushed with
      | panicked =>
        obtain ⟨-, impossible⟩ := ends
        cases impossible
      | kept evicted =>
        obtain ⟨_, rest, rfl, rfl, -⟩ := Proc.completes_perform_bind.mp ends
        simp [pendingAfter]

theorem pollTask_justifies (rounds : Nat) {past : List (Act (sig adapter.reports))}
    (idle : pending past = none) :
    (pollTask settings adapter sub rounds).Justifies (Polls settings adapter sub) past := by
  induction rounds generalizing past with
  | zero => trivial
  | succ rounds ih =>
    refine .act (fun _ => trivial) fun closed => ?_
    cases closed with
    | true => exact finishTask_justifies _
    | false =>
      refine .act (fun _ => trivial) fun _ => .act (fun _ => trivial) fun closed => ?_
      cases closed with
      | true => exact finishTask_justifies _
      | false =>
        refine .bind (fetcher_justifies (by simpa [pendingAfter] using idle)) fun acts result finishes => ?_
        rcases fetcher_completes finishes with
          ⟨event, variant, rfl, holds, shows, answers⟩ | ⟨⟨error, rfl⟩, settled⟩
        · refine .bind (send_justifies holds shows answers) fun acts outcome finishes => ?_
          split
          · exact ih (send_completes finishes)
          · exact finishTask_justifies _
          · trivial
        · exact ih settled

/-- What the consumer does after what it has done: it receives until it drops its receiver. -/
def Consumes {reports : String → String → Bool} (past : List (Act (sig reports)))
    (act : Act (sig reports)) : Prop :=
  (∀ earlier ∈ past, earlier.op ≠ .channel .dropReceiver) ∧
    (act.op = .channel .receive ∨ act.op = .channel .dropReceiver)

theorem consume_justifies {reports : String → String → Bool} (drops : Bool) (reads : Nat)
    {past : List (Act (sig reports))} (keeps : ∀ earlier ∈ past, earlier.op ≠ .channel .dropReceiver) :
    (consume drops reads).Justifies Consumes past := by
  induction reads generalizing past with
  | zero =>
    cases drops with
    | true => exact .act (fun _ => ⟨keeps, .inr rfl⟩) fun _ => trivial
    | false => trivial
  | succ reads ih =>
    refine .act (fun _ => ⟨keeps, .inl rfl⟩) fun item => ih ?_
    intro earlier member
    rcases List.mem_append.mp member with old | new
    · exact keeps earlier old
    · rw [List.mem_singleton.mp new]
      simp

end Programs

section Projection

variable {reports : String → String → Bool} {n : Nat}

/-- The task as the channel sees it. -/
def side : StreamTask n → Overflow.Task (StreamTask n)
  | .forwardLoop => .forwardLoop
  | task => .call task

/-- The history of the channel of a stream. -/
def channelHistory (history : List (Entry (sig reports) (StreamTask n))) :
    List (Entry (Overflow.sig String MarketDataEvent) (Overflow.Task (StreamTask n))) :=
  history.filterMap fun entry => (channelAct entry.act).map fun act => ⟨side entry.task, act⟩

@[simp] theorem channelHistory_nil :
    channelHistory ([] : List (Entry (sig reports) (StreamTask n))) = [] := rfl

theorem channelHistory_snoc (history : List (Entry (sig reports) (StreamTask n)))
    (entry : Entry (sig reports) (StreamTask n)) :
    channelHistory (history ++ [entry]) = channelHistory history ++
      ((channelAct entry.act).map fun act => ⟨side entry.task, act⟩).toList := by
  cases shown : channelAct entry.act with
  | none => simp [channelHistory, shown]
  | some act => simp [channelHistory, shown]

theorem own_forwardLoop (history : List (Entry (sig reports) (StreamTask n))) :
    own .forwardLoop (channelHistory history) = (own .forwardLoop history).filterMap channelAct := by
  rw [channelHistory, own, own, List.filterMap_filterMap, List.filterMap_filterMap]
  refine List.filterMap_congr fun entry _ => ?_
  obtain ⟨task, act⟩ := entry
  cases shown : channelAct act <;> cases task <;> simp [side, shown]

end Projection

section Runs

variable {adapter : Adapter} {request : StreamMarketDataRequest} {policy : OverflowPolicy}
  {debugAssertions : Bool} {rounds reads : Nat} {drops : Bool}

/-- What each task of a stream does after what it has done. -/
def Does (adapter : Adapter) (request : StreamMarketDataRequest)
    (settings : Settings String MarketDataEvent) :
    StreamTask request.polled.length → List (Act (sig adapter.reports)) → Act (sig adapter.reports) → Prop
  | .forwardLoop, past, act => ∃ inner, channelAct act = some inner ∧
      Forwards (past.filterMap channelAct) inner
  | .poll id, past, act => Polls settings adapter (request.polled.get id) past act
  | .consumer, past, act => Consumes past act

theorem pollMarketData_does (task : StreamTask request.polled.length) :
    ((pollMarketData adapter request policy debugAssertions rounds reads drops).procs task).Justifies
      (Does adapter request (streamSettings policy debugAssertions) task) [] := by
  cases task with
  | forwardLoop => exact .map (onChannel_justifies (forwardLoop_justifies rounds rfl)) _
  | poll id => exact pollTask_justifies rounds rfl
  | consumer => exact consume_justifies drops reads (by simp)

variable {settings : Settings String MarketDataEvent}

/-- What a task of the stream does on the channel, a task of the channel may do. -/
theorem Does.performs {task : StreamTask request.polled.length}
    {history : List (Entry (sig adapter.reports) (StreamTask request.polled.length))}
    {op : Overflow.Op MarketDataEvent} {ans : op.Ans String}
    (does : Does adapter request settings task (own task history) ⟨.channel op, ans⟩) :
    Overflow.performs settings (side task) (own (side task) (channelHistory history)) ⟨op, ans⟩ := by
  cases task with
  | forwardLoop =>
    obtain ⟨inner, same, forwards⟩ := does
    obtain rfl := Option.some.inj same
    rw [side, own_forwardLoop]
    exact forwards
  | poll id => cases op <;> first | exact does.1 | exact trivial | exact does.elim
  | consumer =>
    rcases does.2 with receives | leaves
    · cases receives
      exact trivial
    · cases leaves
      exact trivial

/-- What holds of the channel of a stream whose receiver is kept. -/
structure Streams (settings : Settings String MarketDataEvent) {reports : String → String → Bool}
    {n : Nat} (history : List (Entry (sig reports) (StreamTask n))) (shared : Shared) : Prop where
  delivers : Delivers settings (channelHistory history) shared.pipe
  accounts : Accounts settings (channelHistory history) shared.pipe

theorem Streams.start (settings : Settings String MarketDataEvent) {reports : String → String → Bool}
    {n : Nat} (tasks : Nat) :
    Streams settings ([] : List (Entry (sig reports) (StreamTask n))) (Shared.new tasks) where
  delivers := ⟨rfl, .empty, fun _ => ⟨rfl, rfl⟩, fun _ => rfl, fun _ => List.Sublist.refl _,
    fun _ _ => List.Sublist.refl _, fun _ pre entry post item split => by simp at split⟩
  accounts := ⟨rfl, List.Perm.refl _⟩

variable {history : List (Entry (sig adapter.reports) (StreamTask request.polled.length))}
  {before after : Shared} {task : StreamTask request.polled.length}
  {replies : (symbol : String) → Reply adapter.reports symbol}

/-- An action of the stream that is one on the channel. -/
theorem exec_channel {op : Overflow.Op MarketDataEvent} {ans : op.Ans String}
    (fires : before.exec settings replies (.channel op) = some (ans, after)) :
    before.pipe.exec settings op = some (ans, after.pipe) ∧ after.seq = before.seq := by
  obtain ⟨⟨given, pipe⟩, inner, same⟩ := Option.map_eq_some_iff.mp fires
  obtain ⟨rfl, rfl⟩ := Prod.mk.inj same
  exact ⟨inner, rfl⟩

/-- Any other leaves the channel alone. -/
theorem exec_beside {op : Op} {ans : op.Ans adapter.reports}
    (beside : ∀ inner, op ≠ .channel inner)
    (fires : before.exec settings replies op = some (ans, after)) :
    after.pipe = before.pipe ∧ channelAct (⟨op, ans⟩ : Act (sig adapter.reports)) = none := by
  cases op with
  | channel inner => exact absurd rfl (beside inner)
  | tick | fetchAdd | fetchOrderBook | fetchTicker | leave =>
    obtain ⟨rfl, rfl⟩ := Prod.mk.inj (Option.some.inj fires)
    exact ⟨rfl, rfl⟩

theorem Streams.step (streams : Streams settings history before) {op : Op} {ans : op.Ans adapter.reports}
    (keeps : op ≠ .channel .dropReceiver)
    (fires : before.exec settings replies op = some (ans, after))
    (does : Does adapter request settings task (own task history) ⟨op, ans⟩) :
    Streams settings (history ++ [Entry.of task op ans]) after := by
  have beside (other : ∀ inner, op ≠ .channel inner) :
      Streams settings (history ++ [Entry.of task op ans]) after := by
    obtain ⟨same, unseen⟩ := exec_beside other fires
    have shows : channelHistory (history ++ [Entry.of task op ans]) = channelHistory history := by
      simp [channelHistory_snoc, unseen]
    constructor
    · rw [shows, same]
      exact streams.delivers
    · rw [shows, same]
      exact streams.accounts
  cases op with
  | channel op =>
    obtain ⟨inner, _⟩ := exec_channel fires
    have leaves : op ≠ .dropReceiver := fun drops => keeps (by rw [drops])
    have moves := streams.delivers.moves leaves inner does.performs
    have shows : channelHistory (history ++ [(⟨task, ⟨.channel op, ans⟩⟩ :
        Entry (sig adapter.reports) (StreamTask request.polled.length))]) =
          channelHistory history ++ [entry (side task) op ans] := by
      simp [channelHistory_snoc, channelAct]
    constructor
    · rw [shows]
      exact streams.delivers.step leaves inner does.performs
    · rw [shows]
      exact streams.accounts.step streams.delivers.tidy inner does.performs moves
  | tick | fetchAdd | fetchOrderBook | fetchTicker | leave => exact beside (by simp)

theorem Run.streams
    {config : Config (machine adapter.reports (streamSettings policy debugAssertions))
      (StreamTask request.polled.length) Unit}
    (run : Run (pollMarketData adapter request policy debugAssertions rounds reads drops) history config)
    (kept : ∀ entry ∈ history, entry.act.op ≠ .channel .dropReceiver) :
    Streams (streamSettings policy debugAssertions) history config.state := by
  revert kept
  refine Run.invariant pollMarketData_does (fun history shared =>
    (∀ entry ∈ history, entry.act.op ≠ .channel .dropReceiver) →
      Streams (streamSettings policy debugAssertions) history shared) (fun _ => .start _ _) ?_ run
  intro history before task op ans after choice streams fires does kept
  refine (streams fun entry member => kept entry (List.mem_append_left _ member)).step ?_ fires does
  exact kept _ (List.mem_append_right _ (List.mem_singleton_self _))

end Runs

end LongTrader.Market
