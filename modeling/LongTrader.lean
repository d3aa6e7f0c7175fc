import LongTrader.Storage.Disk
import LongTrader.Storage.Replace
import LongTrader.StateStore
import LongTrader.Relay.Errors
import LongTrader.Service
import LongTrader.Relay.Triggers
import LongTrader.Relay.TriggerBook
import LongTrader.Relay.Wallet
import LongTrader.Interleave.Proc
import LongTrader.Interleave.Pool
import LongTrader.Interleave.History
import LongTrader.Interleave.Turns
import LongTrader.Interleave.Alone
import LongTrader.Interleave.Expand
import LongTrader.Interleave.Rest
import LongTrader.Runs
import LongTrader.Contract
import LongTrader.Session.State
import LongTrader.Session.Handle
import LongTrader.Session.Plane
import LongTrader.Session.Events
import LongTrader.Session.Gate
import LongTrader.Session.Lifecycle
import LongTrader.Session.Health
import LongTrader.Session.Proxy
import LongTrader.Session.Service
import LongTrader.Session.Footprint
import LongTrader.Session.Transitions
import LongTrader.Session.Stop
import LongTrader.Session.LifecycleHistory
import LongTrader.Session.Submission
import LongTrader.Session.Retried
import LongTrader.Session.Tracked
import LongTrader.Session.Unwind
import LongTrader.Session.Venue
import LongTrader.Session.Ownership
import LongTrader.Session.Bus
import LongTrader.Session.Ring
import LongTrader.Session.Resume
import LongTrader.Session.StateEvents
import LongTrader.Session.Heartbeat
import LongTrader.Session.Lease
import LongTrader.Session.Watchdog
import LongTrader.Session.Retention
import LongTrader.Session.Retirement
import LongTrader.Decimal
import LongTrader.Risk.Gate
import LongTrader.Risk.Gateway
import LongTrader.Risk.Concurrency
import LongTrader.Risk.Rate
import LongTrader.Risk.Decision
import LongTrader.Risk.Panics
import LongTrader.Risk.Retries
import LongTrader.Numeral
import LongTrader.Rounding
import LongTrader.DecimalCodec
import LongTrader.Newton
import LongTrader.Smoothing
import LongTrader.Session.Ledger
import LongTrader.Session.Refusal
import LongTrader.Session.Watermark
import LongTrader.Session.Counter
import LongTrader.Overflow.Channel
import LongTrader.Overflow.Delivery
import LongTrader.Overflow.Accounts
import LongTrader.Overflow.ForwardLoop
import LongTrader.Overflow.Closing
import LongTrader.Market.Subscription
import LongTrader.Market.Stream
import LongTrader.Market.Coalescing
import LongTrader.Market.Sequence
import LongTrader.Framing
import LongTrader.Envelope
import LongTrader.Sdk.DecimalText
import LongTrader.Sdk.Positional
import LongTrader.Sdk.Wire
import LongTrader.Sdk.WireRoundTrip
import LongTrader.Sdk.WireGrammar
import LongTrader.Sdk.Stream
import LongTrader.Sdk.FirstMessage
import LongTrader.Sdk.Message
import LongTrader.Sdk.Mistyped
import LongTrader.Sdk.Contract.Common
import LongTrader.Sdk.Contract.Trading
import LongTrader.Sdk.Contract.Market
import LongTrader.Sdk.Contract.Worker
import LongTrader.Sdk.Contract.RoundTrip
import LongTrader.Sdk.Contract.Declared
import LongTrader.Sdk.Presence
import LongTrader.Sdk.Pump
import LongTrader.Sdk.Session
import LongTrader.Sdk.Background
import LongTrader.Sdk.Terminal
import LongTrader.Sdk.Readers
import LongTrader.Sdk.Agreement
import LongTrader.Strategy.Order
import LongTrader.Strategy.HedgeGrid
import LongTrader.Strategy.Hedging
import LongTrader.Strategy.Foreign
import LongTrader.Strategy.SimpleGrid
import LongTrader.Strategy.OneLadder
import LongTrader.Strategy.GridLevels
import LongTrader.Strategy.StateFile
import LongTrader.Strategy.Persistence
import LongTrader.Strategy.Flipping
import LongTrader.Strategy.Masking
import LongTrader.Strategy.SkewedGrid
import LongTrader.Strategy.SkewedLadder
import LongTrader.Strategy.Executors
import LongTrader.Strategy.VwapPlan
import LongTrader.Strategy.Conservation
import LongTrader.Indicators.Dema
import LongTrader.Indicators.Rational
import LongTrader.Indicators.Rounded
import LongTrader.Indicators.Supertrend
import LongTrader.Indicators.Ratchet
import LongTrader.Indicators.Sqrt
import LongTrader.Indicators.Rsi
import LongTrader.Indicators.Adx
import LongTrader.Indicators.Volatility
import LongTrader.Strategy.Supertrend
import LongTrader.Strategy.DarvasBox
import LongTrader.Strategy.Pairs
import LongTrader.Strategy.EmaCross
import LongTrader.Strategy.Dca
import LongTrader.Strategy.Rebalance
import LongTrader.Strategy.DepositTransfer
import LongTrader.Strategy.Sentinel
import LongTrader.Requote
import LongTrader.Strategy.Quoting
import LongTrader.Strategy.BalanceAlign
import LongTrader.Strategy.Makers
import LongTrader.Indicators.Channels
import LongTrader.Strategy.Traders
import LongTrader.Strategy.Positions
import LongTrader.CommandLine
import LongTrader.Deviation
import LongTrader.Indicators.Ranges
import LongTrader.Scramble
import LongTrader.Strategy.CrossFixedMaker
import LongTrader.Strategy.RandomEntry
import LongTrader.Strategy.Stillness
