import LongTrader.Contract
import LongTrader.Overflow.Channel

/-! Market subscriptions: which events answer a channel and a symbol, the policy that a request is
streamed with, and the key under which its events coalesce. -/

namespace LongTrader.Market

open Overflow

inductive StreamChannel where
  | unspecified
  | ticker
  | orderbook
  | trades
  | ohlcv
  deriving DecidableEq, Repr

inductive ChannelValue where
  | known (channel : StreamChannel)
  | unknown (value : Int)
  deriving DecidableEq, Repr

structure StreamSubscription where
  channel : ChannelValue
  symbol : String
  deriving DecidableEq, Repr

structure StreamMarketDataRequest where
  exchangeId : Option ExchangeId
  subscriptions : List StreamSubscription
  deriving DecidableEq, Repr

structure EventHeader where
  traceId : String
  sequence : UInt64
  deriving DecidableEq, Repr

/-- The variants of a market data event, with the symbol of those that carry one. -/
inductive Variant where
  | ticker (symbol : String)
  | orderbook (symbol : String)
  | trade (symbol : String)
  | ohlcv
  deriving DecidableEq, Repr

structure MarketDataEvent where
  header : EventHeader
  event : Option Variant
  resumeToken : String
  deriving DecidableEq, Repr

def channelName : Option Variant → String
  | some (.ticker _) => "ticker"
  | some (.orderbook _) => "book"
  | some (.trade _) => "trade"
  | some .ohlcv => "ohlcv"
  | none => "none"

def symbolName : Option Variant → String
  | some (.ticker symbol) | some (.orderbook symbol) | some (.trade symbol) => symbol
  | some .ohlcv | none => ""

def marketEventKey (event : MarketDataEvent) : String :=
  channelName event.event ++ ":" ++ symbolName event.event

def policyOf (request : StreamMarketDataRequest) : OverflowPolicy :=
  if request.subscriptions.any fun sub => sub.channel = .known .orderbook then .coalesce
  else .dropOldest

/-- The channel that `poll_market_data` polls for a subscription. -/
def ChannelValue.polled : ChannelValue → StreamChannel
  | .known channel => channel
  | .unknown _ => .unspecified

def StreamMarketDataRequest.polled (request : StreamMarketDataRequest) : List StreamSubscription :=
  match request.exchangeId with
  | none => []
  | some _ => request.subscriptions.filter fun sub => !sub.symbol.isEmpty

/-- The adapters behind a market stream. A remote backend names a symbol in its replies, one that
it reports for the symbol it is asked for. -/
inductive Adapter where
  | mock
  | remote (reports : String → String → Bool)

def syntheticEvent (channel : StreamChannel) (symbol : String) : Variant :=
  match channel with
  | .orderbook => .orderbook symbol
  | .trades => .trade symbol
  | .ohlcv => .ohlcv
  | .ticker | .unspecified => .ticker symbol

/-- The event of `poll_snapshot` from a reply that names the symbol. -/
def snapshotEvent (channel : StreamChannel) (symbol : String) : Variant :=
  if channel = .orderbook then .orderbook symbol else .ticker symbol

def Adapter.Answers : Adapter → StreamSubscription → Variant → Prop
  | .mock, sub, variant => variant = syntheticEvent sub.channel.polled sub.symbol
  | .remote reports, sub, variant => ∃ symbol, reports sub.symbol symbol = true ∧
      variant = snapshotEvent sub.channel.polled symbol

def Adapter.feed : Adapter → StreamChannel → StreamChannel
  | .mock, .unspecified => .ticker
  | .mock, channel => channel
  | .remote _, .orderbook => .orderbook
  | .remote _, _ => .ticker

/-- Whether a symbol may stand in an event for the symbol that was subscribed. -/
def Adapter.reports : Adapter → String → String → Bool
  | .mock, symbol, named => named = symbol
  | .remote reports, symbol, named => reports symbol named

/-- No two different pairs of a request are answered by events of one kind, unless their symbols are
told apart: by symbols in the events, which candles do not carry. -/
def Apart (adapter : Adapter) (subs : List StreamSubscription) : Prop :=
  ∀ first ∈ subs, ∀ second ∈ subs, first ≠ second →
    adapter.feed first.channel.polled = adapter.feed second.channel.polled →
    adapter.feed first.channel.polled ≠ .ohlcv ∧
      ∀ named, ¬ (adapter.reports first.symbol named = true ∧ adapter.reports second.symbol named = true)

def KeysDiffer (adapter : Adapter) (subs : List StreamSubscription) : Prop :=
  ∀ first ∈ subs, ∀ second ∈ subs, first ≠ second → ∀ one another : MarketDataEvent,
    ∀ variant, one.event = some variant → adapter.Answers first variant →
    ∀ other, another.event = some other → adapter.Answers second other →
      marketEventKey one ≠ marketEventKey another

def keyOf (variant : Variant) : String := channelName (some variant) ++ ":" ++ symbolName (some variant)

theorem marketEventKey_of {event : MarketDataEvent} {variant : Variant}
    (carries : event.event = some variant) : marketEventKey event = keyOf variant := by
  rw [marketEventKey, carries, keyOf]

def keyHead : Variant → List Char
  | .ticker _ => ['t', 'i']
  | .orderbook _ => ['b', 'o']
  | .trade _ => ['t', 'r']
  | .ohlcv => ['o', 'h']

theorem keyOf_head (variant : Variant) : (keyOf variant).toList.take 2 = keyHead variant := by
  cases variant <;> simp [keyOf, channelName, symbolName, keyHead]

/-- A key tells the kind of an event and its symbol, and nothing more. -/
theorem keyOf_eq_iff {first second : Variant} : keyOf first = keyOf second ↔ first = second := by
  constructor
  · intro same
    have heads : keyHead first = keyHead second := by
      rw [← keyOf_head, ← keyOf_head, same]
    cases first <;> cases second <;> simp_all [keyHead, keyOf, channelName, symbolName]
  · rintro rfl
    rfl

theorem Adapter.answers_iff {adapter : Adapter} {sub : StreamSubscription} {variant : Variant} :
    adapter.Answers sub variant ↔ ∃ named, adapter.reports sub.symbol named = true ∧
      variant = syntheticEvent (adapter.feed sub.channel.polled) named := by
  cases adapter with
  | mock =>
    cases polled : sub.channel.polled <;>
      simp [Adapter.Answers, Adapter.reports, Adapter.feed, syntheticEvent, polled]
  | remote reports =>
    cases polled : sub.channel.polled <;>
      simp [Adapter.Answers, Adapter.reports, Adapter.feed, syntheticEvent, snapshotEvent, polled]

/-- Two feeds give one event when they are one feed, which gives no symbol or the same. -/
theorem syntheticEvent_eq_iff {first second : StreamChannel} (one : first ≠ .unspecified)
    (other : second ≠ .unspecified) {named again : String} :
    syntheticEvent first named = syntheticEvent second again ↔
      first = second ∧ (first = .ohlcv ∨ named = again) := by
  cases first <;> cases second <;> simp_all [syntheticEvent]

theorem Adapter.feed_ne (adapter : Adapter) (channel : StreamChannel) :
    adapter.feed channel ≠ .unspecified := by
  cases adapter <;> cases channel <;> simp [Adapter.feed]

theorem Adapter.reports_of_candles {adapter : Adapter} {channel : StreamChannel}
    (candles : adapter.feed channel = .ohlcv) (symbol : String) :
    adapter.reports symbol symbol = true := by
  cases adapter with
  | mock => simp [Adapter.reports]
  | remote reports => cases channel <;> simp [Adapter.feed] at candles

/-- The keys of a request tell its pairs apart exactly when its feeds and symbols do. -/
theorem keysDiffer_iff {adapter : Adapter} {subs : List StreamSubscription} :
    KeysDiffer adapter subs ↔ Apart adapter subs := by
  constructor
  · intro differ first member second other pairs feeds
    have collide (name again : String) (one : adapter.reports first.symbol name = true)
        (two : adapter.reports second.symbol again = true) :
        ¬ (adapter.feed first.channel.polled = .ohlcv ∨ name = again) := by
      intro alike
      have same := (syntheticEvent_eq_iff (adapter.feed_ne _) (adapter.feed_ne _)).mpr ⟨feeds, alike⟩
      refine differ first member second other pairs ⟨⟨"", 0⟩, some _, ""⟩ ⟨⟨"", 0⟩, some _, ""⟩ _ rfl
        (Adapter.answers_iff.mpr ⟨name, one, rfl⟩) _ rfl (Adapter.answers_iff.mpr ⟨again, two, rfl⟩) ?_
      rw [marketEventKey_of rfl, marketEventKey_of rfl, same]
    constructor
    · intro candles
      exact collide _ _ (Adapter.reports_of_candles candles first.symbol)
        (Adapter.reports_of_candles (feeds ▸ candles) second.symbol) (.inl candles)
    · rintro shared ⟨here, there⟩
      exact collide shared shared here there (.inr rfl)
  · intro apart first member second other pairs one another variant shows answers otherVariant
      otherShows otherAnswers same
    obtain ⟨name, reported, rfl⟩ := Adapter.answers_iff.mp answers
    obtain ⟨again, reportedAgain, rfl⟩ := Adapter.answers_iff.mp otherAnswers
    rw [marketEventKey_of shows, marketEventKey_of otherShows, keyOf_eq_iff,
      syntheticEvent_eq_iff (adapter.feed_ne _) (adapter.feed_ne _)] at same
    obtain ⟨feeds, alike⟩ := same
    obtain ⟨symbols, unshared⟩ := apart first member second other pairs feeds
    rcases alike with candles | rfl
    · exact symbols candles
    · exact unshared name ⟨reported, reportedAgain⟩

end LongTrader.Market
