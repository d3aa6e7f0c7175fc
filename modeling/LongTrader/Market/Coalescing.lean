import LongTrader.Market.Stream
import Mathlib.Data.List.Induction

/-! What coalescing merges. A buffered event gives way to one of its key, so the keys have to tell
the streams of a request apart. -/

namespace LongTrader.Market

open Interleave Overflow

section Coalescing

variable {adapter : Adapter} {request : StreamMarketDataRequest} {policy : OverflowPolicy}
  {debugAssertions : Bool} {rounds reads : Nat} {drops : Bool}
  {history pre post : List (Entry (sig adapter.reports) (StreamTask request.polled.length))}
  {config : Config (machine adapter.reports (streamSettings policy debugAssertions))
    (StreamTask request.polled.length) Unit}

theorem mem_replace {K T : Type} [DecidableEq K] {key : K} {item : T} {buf : List (K × T)} {slot : K × T}
    (member : slot ∈ replace key item buf) : slot ∈ buf ∨ slot = (key, item) := by
  induction buf with
  | nil => cases member
  | cons head rest ih =>
    rw [replace] at member
    split at member
    · rename_i here
      rcases List.mem_cons.mp member with rfl | later
      · exact .inr (by rw [here])
      · exact .inl (List.mem_cons_of_mem _ later)
    · rcases List.mem_cons.mp member with rfl | later
      · exact .inl (List.mem_cons_self ..)
      · exact (ih later).imp_left (List.mem_cons_of_mem _)

/-- A push adds nothing to the buffer but its item. -/
theorem mem_pushItem {K T : Type} [DecidableEq K] {settings : Settings K T} {item : T}
    {buf : List (K × T)} {slot : K × T} (member : slot ∈ (pushItem settings item buf).2) :
    slot ∈ buf ∨ slot = (settings.keyOf item, item) := by
  have appended (member : slot ∈ (popExcess settings.cap (buf ++ [(settings.keyOf item, item)])).2) :
      slot ∈ buf ∨ slot = (settings.keyOf item, item) := by
    simpa using List.mem_of_mem_drop member
  unfold pushItem at member
  dsimp only at member
  split at member
  · split at member
    · exact mem_replace member
    · exact appended member
  · exact appended member

/-- What the tasks put into the buffer. -/
def pushes {reports : String → String → Bool} {n : Nat}
    (history : List (Entry (sig reports) (StreamTask n))) : List (StreamTask n × MarketDataEvent) :=
  history.filterMap fun entry => match entry.act with
    | ⟨.channel (.push event), .kept _⟩ => some (entry.task, event)
    | _ => none

/-- The event was put into the buffer by the poll task. -/
def SentBy {reports : String → String → Bool} {n : Nat} (id : Fin n)
    (history : List (Entry (sig reports) (StreamTask n))) (event : MarketDataEvent) : Prop :=
  (.poll id, event) ∈ pushes history

theorem sentBy_iff {reports : String → String → Bool} {n : Nat} {id : Fin n}
    {history : List (Entry (sig reports) (StreamTask n))} {event : MarketDataEvent} :
    SentBy id history event ↔ ∃ gone, (⟨.poll id, ⟨.channel (.push event), .kept gone⟩⟩ :
      Entry (sig reports) (StreamTask n)) ∈ history := by
  unfold SentBy pushes
  rw [List.mem_filterMap]
  constructor
  · rintro ⟨⟨task, act⟩, member, shown⟩
    split at shown
    · rename_i pushed gone same
      obtain ⟨rfl, rfl⟩ := Prod.mk.inj (Option.some.inj shown)
      obtain rfl := same
      exact ⟨gone, member⟩
    · cases shown
  · rintro ⟨gone, member⟩
    exact ⟨_, member, rfl⟩

theorem SentBy.append {reports : String → String → Bool} {n : Nat} {id : Fin n}
    {first : List (Entry (sig reports) (StreamTask n))} {event : MarketDataEvent}
    (sent : SentBy id first event) (second : List (Entry (sig reports) (StreamTask n))) :
    SentBy id (first ++ second) event := by
  unfold SentBy pushes
  rw [List.filterMap_append]
  exact List.mem_append_left _ sent

/-- What a poll task sends is an event of its subscription. -/
theorem Run.answers {id : Fin request.polled.length} {event : MarketDataEvent}
    (run : Run (pollMarketData adapter request policy debugAssertions rounds reads drops) history config)
    (sent : SentBy id history event) :
    ∃ variant, event.event = some variant ∧ adapter.Answers (request.polled.get id) variant := by
  obtain ⟨gone, member⟩ := sentBy_iff.mp sent
  obtain ⟨pre, post, rfl⟩ := List.append_of_mem member
  obtain ⟨_, _, variant, shows, answers⟩ := run.justified (pollMarketData_does (.poll id))
  exact ⟨variant, shows, answers⟩

/-- Only a poll task fills the buffer. -/
theorem Does.polls {settings : Settings String MarketDataEvent}
    {task : StreamTask request.polled.length} {past : List (Act (sig adapter.reports))}
    {event : MarketDataEvent} {ans : Pushed String MarketDataEvent}
    (does : Does adapter request settings task past ⟨.channel (.push event), ans⟩) :
    ∃ id, task = .poll id := by
  cases task with
  | forwardLoop =>
    obtain ⟨inner, same, forwards⟩ := does
    obtain rfl := Option.some.inj same
    exact forwards.elim
  | poll id => exact ⟨id, rfl⟩
  | consumer =>
    rcases does.2 with receives | leaves
    · cases receives
    · cases leaves

/-- Everything in the buffer was put there by a poll task, under its key. -/
def Filled {reports : String → String → Bool} {n : Nat}
    (history : List (Entry (sig reports) (StreamTask n))) (shared : Shared) : Prop :=
  ∀ slot ∈ shared.pipe.buf, slot.1 = marketEventKey slot.2 ∧ ∃ id, SentBy id history slot.2

theorem Filled.step {settings : Settings String MarketDataEvent}
    (keys : settings.keyOf = marketEventKey) {before after : Shared}
    {task : StreamTask request.polled.length} {op : Op} {ans : op.Ans adapter.reports}
    {replies : (symbol : String) → Reply adapter.reports symbol} (filled : Filled history before)
    (fires : before.exec settings replies op = some (ans, after))
    (does : Does adapter request settings task (own task history) ⟨op, ans⟩) :
    Filled (history ++ [Entry.of task op ans]) after := by
  have kept (slot : String × MarketDataEvent) (member : slot ∈ before.pipe.buf) :
      slot.1 = marketEventKey slot.2 ∧ ∃ id, SentBy id (history ++ [Entry.of task op ans]) slot.2 := by
    obtain ⟨keyed, id, sent⟩ := filled slot member
    exact ⟨keyed, id, sent.append _⟩
  by_cases channel : ∃ inner, op = .channel inner
  · obtain ⟨inner, rfl⟩ := channel
    obtain ⟨acts, _⟩ := exec_channel fires
    have now := exec_buf acts
    intro slot member
    rw [now] at member
    unfold bufferAfter at member
    split at member
    · rename_i item gone same
      obtain ⟨rfl, rfl⟩ := Act.mk.inj same
      rcases mem_pushItem member with old | rfl
      · exact kept slot old
      · obtain ⟨id, rfl⟩ := does.polls
        exact ⟨by rw [keys], id, sentBy_iff.mpr ⟨gone, by simp⟩⟩
    · cases member
    · exact kept slot member
  · obtain ⟨same, _⟩ := exec_beside (fun inner is => channel ⟨inner, is⟩) fires
    intro slot member
    rw [same] at member
    exact kept slot member

theorem Run.filled
    (run : Run (pollMarketData adapter request policy debugAssertions rounds reads drops) history config) :
    Filled history config.state := by
  refine Run.invariant pollMarketData_does Filled ?_ ?_ run
  · intro slot member
    cases member
  · intro history before task op ans after choice filled fires does
    exact filled.step rfl fires does

/-- The new event carries a number that its task has taken after it had sent the old one. -/
def Supersedes {reports : String → String → Bool} (acts : List (Act (sig reports)))
    (old new : MarketDataEvent) : Prop :=
  ∃ first gone rest previous, acts = first ++ ⟨.channel (.push old), .kept gone⟩ :: rest ∧
    (⟨.fetchAdd, previous⟩ : Act (sig reports)) ∈ rest ∧ new.header.sequence = previous + 1

theorem exists_fetchAdd_of_pending {reports : String → String → Bool} {acts : List (Act (sig reports))}
    {number : UInt64} (holds : acts.foldl pendingAfter none = some number) :
    ∃ previous, (⟨.fetchAdd, previous⟩ : Act (sig reports)) ∈ acts ∧ number = previous + 1 := by
  induction acts using List.reverseRecOn with
  | nil => cases holds
  | append_singleton acts act ih =>
    rw [List.foldl_append, List.foldl_cons, List.foldl_nil] at holds
    have earlier (kept : acts.foldl pendingAfter none = some number) :
        ∃ previous, (⟨.fetchAdd, previous⟩ : Act (sig reports)) ∈ acts ++ [act] ∧ number = previous + 1 := by
      obtain ⟨previous, member, same⟩ := ih kept
      exact ⟨previous, List.mem_append_left _ member, same⟩
    unfold pendingAfter at holds
    split at holds
    · obtain rfl := Option.some.inj holds
      exact ⟨_, by simp, rfl⟩
    · cases holds
    · cases holds
    · cases holds
    · cases holds
    · cases holds
    · exact earlier holds

/-- A replaced event was in the buffer under the key of the one that replaces it. -/
theorem mem_of_replacedBy {settings : Settings String MarketDataEvent}
    {buf : List (String × MarketDataEvent)} {old item : MarketDataEvent}
    {gone : List (String × MarketDataEvent)}
    (replaces : replacedBy settings buf ⟨.push item, .kept gone⟩ = some old) :
    ∃ slot ∈ buf, slot.1 = settings.keyOf item ∧ slot.2 = old := by
  simp only [replacedBy] at replaces
  split at replaces
  · obtain ⟨slot, found, rfl⟩ := Option.map_eq_some_iff.mp replaces
    exact ⟨slot, List.mem_of_find?_eq_some found, by simpa using List.find?_some found, rfl⟩
  · cases replaces

/-- An event of the stream gives way only to a later one of its own subscription. -/
def ReplacesOwn (adapter : Adapter) (request : StreamMarketDataRequest) (debugAssertions : Bool)
    (rounds reads : Nat) (drops : Bool) : Prop :=
  ∀ history final pre task item gone post middle old,
    Run (pollMarketData adapter request (policyOf request) debugAssertions rounds reads drops)
      history final →
    history = pre ++ ⟨task, ⟨.channel (.push item), .kept gone⟩⟩ :: post →
    Run (pollMarketData adapter request (policyOf request) debugAssertions rounds reads drops)
      pre middle →
    replacedBy (streamSettings (policyOf request) debugAssertions) middle.state.pipe.buf
      ⟨.push item, .kept gone⟩ = some old →
    ∃ id, task = .poll id ∧ Supersedes (own (.poll id) pre) old item

/-- The keys tell the pairs of a request apart exactly when its feeds do; and then, if no pair is
subscribed twice, coalescing merges nothing but the events of one subscription, the newer over the
older. -/
theorem coalescing_keeps_apart (adapter : Adapter) (request : StreamMarketDataRequest) :
    (KeysDiffer adapter request.polled ↔ Apart adapter request.polled) ∧
      (Apart adapter request.polled → request.polled.Nodup →
        ∀ debugAssertions rounds reads drops,
          ReplacesOwn adapter request debugAssertions rounds reads drops) := by
  refine ⟨keysDiffer_iff, ?_⟩
  intro apart single debugAssertions rounds reads drops history final pre task item gone post middle old
    run cut before replaces
  subst cut
  have does := run.justified (pollMarketData_does task)
  obtain ⟨id, rfl⟩ := does.polls
  obtain ⟨-, holds, variant, shows, answers⟩ := does
  obtain ⟨slot, member, keyed, rfl⟩ := mem_of_replacedBy replaces
  obtain ⟨ownKey, other, sent⟩ := Run.filled before slot member
  obtain ⟨otherVariant, otherShows, otherAnswers⟩ := Run.answers before sent
  have same : other = id := by
    by_contra different
    have pairs : request.polled.get other ≠ request.polled.get id := by
      intro equal
      exact different (List.nodup_iff_injective_get.mp single equal)
    have differ := keysDiffer_iff.mpr apart
    exact differ _ (List.get_mem ..) _ (List.get_mem ..) pairs slot.2 item _ otherShows otherAnswers
      _ shows answers (ownKey.symm.trans keyed)
  subst same
  obtain ⟨evicted, sent⟩ := sentBy_iff.mp sent
  obtain ⟨first, rest, split⟩ := List.append_of_mem (mem_own.mpr sent)
  rw [split] at holds
  have later : rest.foldl pendingAfter none = some item.header.sequence := by
    simpa [pendingAfter] using holds
  obtain ⟨previous, taken, number⟩ := exists_fetchAdd_of_pending later
  exact ⟨other, rfl, first, evicted, rest, previous, split, taken, number⟩

end Coalescing

/-- The order books of two symbols, and the ticker of one of them. -/
def books : StreamMarketDataRequest :=
  ⟨some ⟨"mock", ""⟩, [⟨.known .orderbook, "BTC/USDT"⟩, ⟨.known .orderbook, "ETH/USDT"⟩,
    ⟨.known .ticker, "BTC/USDT"⟩]⟩

/-- They are streamed under the policy that coalesces, each in its own place. -/
theorem coalescing_keeps_apart_books : policyOf books = .coalesce ∧
    ReplacesOwn .mock books true 2 0 false := by
  refine ⟨by decide, (coalescing_keeps_apart .mock books).2 ?_ (by decide) true 2 0 false⟩
  intro first member second other pairs feeds
  have listed : books.polled = [⟨.known .orderbook, "BTC/USDT"⟩, ⟨.known .orderbook, "ETH/USDT"⟩,
      ⟨.known .ticker, "BTC/USDT"⟩] := by decide
  rw [listed] at member other
  simp only [List.mem_cons, List.not_mem_nil, or_false] at member other
  rcases member with rfl | rfl | rfl <;> rcases other with rfl | rfl | rfl <;>
    simp_all [Adapter.feed, Adapter.reports, ChannelValue.polled]

/-- An order book, and the candles of two symbols. -/
def candles : StreamMarketDataRequest :=
  ⟨some ⟨"mock", ""⟩, [⟨.known .orderbook, "BTC/USDT"⟩, ⟨.known .ohlcv, "BTC/USDT"⟩,
    ⟨.known .ohlcv, "ETH/USDT"⟩]⟩

/-- The candles of one symbol replace those of the other. -/
theorem candles_merge : ¬ KeysDiffer .mock candles.polled ∧ ∃ history config,
    Run (pollMarketData .mock candles (policyOf candles) true 1 0 false) history config ∧
      pushes history = [(.poll ⟨1, by decide⟩, numbered "mock" 1 .ohlcv),
        (.poll ⟨2, by decide⟩, numbered "mock" 2 .ohlcv)] ∧
      buffered config.state.pipe = [numbered "mock" 2 .ohlcv] := by
  constructor
  · intro differ
    have apart := keysDiffer_iff.mp differ
    have symbols := apart ⟨.known .ohlcv, "BTC/USDT"⟩ (by decide) ⟨.known .ohlcv, "ETH/USDT"⟩ (by decide)
      (by decide) rfl
    exact symbols.1 rfl
  · exact Run.exists_of_replay (List.flatten
      [List.replicate 7 (.poll ⟨1, by decide⟩, fun _ => .error (.transport "")),
        List.replicate 7 (.poll ⟨2, by decide⟩, fun _ => .error (.transport ""))]) (by decide +kernel)

end LongTrader.Market
