import LongTrader.Strategy.CrossVenue
import Mathlib.Data.Sign.Basic

/-! The maker that quotes on one venue at the price of another, and hedges its fills there. It never cancels a
quote and keeps nothing between polls, so the quotes that rest are all that it knows of its fills. -/

namespace LongTrader.Strategy.CrossVenue

open Supertrend (signed)

structure CrossFixedMakerConfig where
  venues : CrossVenueParams
  spread : ℚ
  qty : ℚ

/-- What a poll reads, and what the venues say to its orders if they refuse them. -/
structure MakerReading where
  ticker : TickerRead ℚ
  openOrders : Except PortError (List OrderSide)
  bidAnswer : Option PortError
  askAnswer : Option PortError
  hedgeAnswer : Option PortError

/-- `CrossFixedMaker::tick`. -/
def CrossFixedMakerConfig.tick (config : CrossFixedMakerConfig) (reading : MakerReading) : List Submission :=
  match fetchPrice reading.ticker, reading.openOrders with
  | some fair, .ok openOrders =>
    let primary := config.venues.primary
    let symbol := config.venues.symbol
    let bids := openOrders.count .buy
    let asks := openOrders.count .sell
    let hedge : Submission :=
      ⟨marketOrder config.venues.hedge symbol (decide (bids < asks)) config.qty, reading.hedgeAnswer.isNone⟩
    [leg primary symbol true (fair * (1 - config.spread)) config.qty reading.bidAnswer,
      leg primary symbol false (fair * (1 + config.spread)) config.qty reading.askAnswer] ++
      (if bids = asks then [] else [hedge])
  | _, _ => []

/-- The two venues: the quotes that rest on the first, what their fills have made of the inventory, and what
the hedges have made of the position on the second. -/
structure Venues where
  book : List (Request ℚ)
  inventory : ℚ
  hedged : ℚ

def Venues.new : Venues := ⟨[], 0, 0⟩

/-- A poll of the maker, which may fail to read the venues, or the fill of a quote that rests. -/
inductive MakerEvent where
  | poll (ticker : TickerRead ℚ) (unread : Option PortError) (bidAnswer askAnswer hedgeAnswer : Option PortError)
  | fill (index : Nat)

/-- The orders of a poll as the venues take them: limit orders rest, market orders are filled. -/
def Venues.take (venues : Venues) (submissions : List Submission) : Venues where
  book := venues.book ++ ((accepted submissions).filter fun submission => submission.request.type = .limit).map
    Submission.request
  inventory := venues.inventory
  hedged := venues.hedged +
    (((accepted submissions).filter fun submission => submission.request.type = .market).map signed).sum

def Venues.step (config : CrossFixedMakerConfig) (venues : Venues) : MakerEvent → Venues
  | .poll ticker unread bidAnswer askAnswer hedgeAnswer =>
    let openOrders := match unread with
      | some error => .error error
      | none => .ok (venues.book.map Request.side)
    venues.take (config.tick ⟨ticker, openOrders, bidAnswer, askAnswer, hedgeAnswer⟩)
  | .fill index =>
    match venues.book[index]? with
    | none => venues
    | some quote => { venues with
        book := venues.book.eraseIdx index
        inventory := venues.inventory + signed ⟨quote, true⟩ }

/-- The two quotes of a poll are accepted or refused together. -/
def MakerEvent.Alike : MakerEvent → Prop
  | .poll _ _ bidAnswer askAnswer _ => bidAnswer = none ↔ askAnswer = none
  | .fill _ => True

/-- A poll that reads both venues, and whose orders are all accepted. -/
def MakerEvent.Served : MakerEvent → Prop
  | .poll ticker unread bidAnswer askAnswer hedgeAnswer =>
    (fetchPrice ticker).isSome ∧ unread = none ∧ bidAnswer = none ∧ askAnswer = none ∧ hedgeAnswer = none
  | .fill _ => False

/-- What the inventory would change by, if all that rests were filled. -/
def Venues.resting (venues : Venues) : ℚ := (venues.book.map fun quote => signed ⟨quote, true⟩).sum

/-- The inventory is what the missing quotes have bought and sold, since they are placed in pairs. -/
structure Venues.Paired (config : CrossFixedMakerConfig) (venues : Venues) : Prop where
  quotes : ∀ quote ∈ venues.book, quote.amount = config.qty ∧ (quote.side = .buy ∨ quote.side = .sell)
  inventory : venues.inventory + venues.resting = 0

variable {config : CrossFixedMakerConfig} {venues : Venues}

theorem Venues.Paired.new : Venues.new.Paired config := ⟨nofun, by simp [Venues.new, Venues.resting]⟩

/-- Quotes of one amount, all filled, leave what the sides differ by. -/
theorem sum_signed_eq {qty : ℚ} {book : List (Request ℚ)}
    (quotes : ∀ quote ∈ book, quote.amount = qty ∧ (quote.side = .buy ∨ quote.side = .sell)) :
    (book.map fun quote => signed ⟨quote, true⟩).sum =
      qty * ((book.map Request.side).count .buy - (book.map Request.side).count .sell) := by
  induction book with
  | nil => simp
  | cons quote rest ih =>
    have later := ih fun other member => quotes other (List.mem_cons_of_mem quote member)
    obtain ⟨amount, side⟩ := quotes quote List.mem_cons_self
    rw [List.map_cons, List.sum_cons, later]
    rcases side with buys | sells
    · simp [signed, buys, amount]
      ring
    · simp [signed, sells, amount]
      ring

/-- The direction of the inventory, as the counts of the quotes that rest tell it. -/
theorem Venues.Paired.sign_inventory (paired : venues.Paired config) (positive : 0 < config.qty) :
    SignType.sign venues.inventory =
      SignType.sign (((venues.book.map Request.side).count .sell : ℚ) -
        (venues.book.map Request.side).count .buy) := by
  have missing : venues.inventory = config.qty * (((venues.book.map Request.side).count .sell : ℚ) -
      (venues.book.map Request.side).count .buy) := by
    have resting := sum_signed_eq paired.quotes
    have inventory := paired.inventory
    rw [Venues.resting, resting] at inventory
    linear_combination inventory
  rw [missing, sign_mul, sign_pos positive, one_mul]

theorem Venues.Paired.fill (paired : venues.Paired config) (index : Nat) :
    (venues.step config (.fill index)).Paired config := by
  simp only [Venues.step]
  cases found : venues.book[index]? with
  | none => exact paired
  | some quote =>
    obtain ⟨within, rfl⟩ := List.getElem?_eq_some_iff.mp found
    have order : List.Perm (venues.book[index] :: venues.book.eraseIdx index) venues.book :=
      List.getElem_cons_eraseIdx_perm within
    constructor
    · intro other member
      exact paired.quotes other (List.mem_of_mem_eraseIdx member)
    · have before := paired.inventory
      have parts := (order.map fun quote => signed ⟨quote, true⟩).sum_eq
      rw [List.map_cons, List.sum_cons] at parts
      simp only [Venues.resting] at before ⊢
      linear_combination before + parts

theorem Venues.take_nil (venues : Venues) : venues.take [] = venues := by
  simp [Venues.take, accepted]

theorem Venues.take_append (venues : Venues) (first second : List Submission) :
    venues.take (first ++ second) = (venues.take first).take second := by
  simp [Venues.take, accepted, add_assoc]

theorem Venues.take_leg (venues : Venues) (exchangeId : ExchangeId) (symbol : String) (isBuy : Bool)
    (price qty : ℚ) (answer : Option PortError) :
    venues.take [leg exchangeId symbol isBuy price qty answer] = { venues with
      book := venues.book ++ if answer = none then [limitOrder exchangeId symbol isBuy price qty] else [] } := by
  cases answer with
  | none => simp [Venues.take, accepted, leg, limitOrder, orderRequest]
  | some error => simp [Venues.take, accepted, leg]

theorem Venues.take_marketOrder (venues : Venues) (exchangeId : ExchangeId) (symbol : String) (isBuy : Bool)
    (qty : ℚ) (answer : Option PortError) :
    venues.take [⟨marketOrder exchangeId symbol isBuy qty, answer.isNone⟩] = { venues with
      hedged := venues.hedged + if answer = none then if isBuy then qty else -qty else 0 } := by
  cases answer with
  | none => cases isBuy <;> simp [Venues.take, accepted, marketOrder, orderRequest, signed]
  | some error => simp [Venues.take, accepted]

/-- What a poll that reads both venues makes of them. -/
theorem Venues.step_poll (venues : Venues) {ticker : TickerRead ℚ} {fair : ℚ} (read : fetchPrice ticker = some fair)
    (bidAnswer askAnswer hedgeAnswer : Option PortError) :
    let bids := (venues.book.map Request.side).count .buy
    let asks := (venues.book.map Request.side).count .sell
    let quote isBuy price := limitOrder config.venues.primary config.venues.symbol isBuy price config.qty
    venues.step config (.poll ticker none bidAnswer askAnswer hedgeAnswer) =
      { book := venues.book ++ (if bidAnswer = none then [quote true (fair * (1 - config.spread))] else []) ++
          if askAnswer = none then [quote false (fair * (1 + config.spread))] else []
        inventory := venues.inventory
        hedged := venues.hedged + if bids = asks then 0 else
          if hedgeAnswer = none then if bids < asks then config.qty else -config.qty else 0 } := by
  intro bids asks quote
  simp only [Venues.step, CrossFixedMakerConfig.tick, read]
  rw [Venues.take_append, ← List.singleton_append, Venues.take_append, Venues.take_leg, Venues.take_leg]
  by_cases level : bids = asks
  · rw [if_pos level, if_pos level, add_zero, Venues.take_nil]
  · rw [if_neg level, if_neg level, Venues.take_marketOrder]
    simp [quote, bids, asks]

/-- A poll places its quotes in pairs, or none. -/
theorem Venues.Paired.poll (paired : venues.Paired config) {ticker : TickerRead ℚ}
    {unread bidAnswer askAnswer hedgeAnswer : Option PortError} (alike : bidAnswer = none ↔ askAnswer = none) :
    (venues.step config (.poll ticker unread bidAnswer askAnswer hedgeAnswer)).Paired config := by
  have nothing : (venues.take []).Paired config := by rwa [Venues.take_nil]
  cases unread with
  | some error => simpa [Venues.step, CrossFixedMakerConfig.tick] using nothing
  | none =>
    cases read : fetchPrice ticker with
    | none => simpa [Venues.step, CrossFixedMakerConfig.tick, read] using nothing
    | some fair =>
      rw [Venues.step_poll venues read]
      by_cases taken : bidAnswer = none
      · simp only [if_pos taken, if_pos (alike.mp taken), List.append_assoc, List.singleton_append]
        constructor
        · intro quote member
          rcases List.mem_append.mp member with earlier | placed
          · exact paired.quotes quote earlier
          · rcases List.mem_pair.mp placed with rfl | rfl
            · exact ⟨rfl, .inl rfl⟩
            · exact ⟨rfl, .inr rfl⟩
        · simpa [Venues.resting, signed, limitOrder, orderRequest] using paired.inventory
      · have refused : ¬askAnswer = none := fun none_ask => taken (alike.mpr none_ask)
        simp only [if_neg taken, if_neg refused, List.append_nil]
        exact ⟨paired.quotes, paired.inventory⟩

theorem Venues.Paired.step (paired : venues.Paired config) {event : MakerEvent} (alike : event.Alike) :
    (venues.step config event).Paired config := by
  cases event with
  | poll ticker unread bidAnswer askAnswer hedgeAnswer => exact paired.poll alike
  | fill index => exact paired.fill index

theorem Venues.Paired.run {events : List MakerEvent} (alike : ∀ event ∈ events, event.Alike)
    (paired : venues.Paired config) : (events.foldl (Venues.step config) venues).Paired config := by
  induction events generalizing venues with
  | nil => exact paired
  | cons event rest ih =>
    exact ih (fun other member => alike other (List.mem_cons_of_mem event member))
      (paired.step (alike event List.mem_cons_self))

theorem MakerEvent.Served.alike {event : MakerEvent} (served : event.Served) : event.Alike := by
  cases event with
  | poll ticker unread bidAnswer askAnswer hedgeAnswer =>
    obtain ⟨-, -, bid, ask, -⟩ := served
    exact iff_of_true bid ask
  | fill index => trivial

/-- A poll that is served hedges in the direction of the inventory. -/
theorem Venues.Paired.served (positive : 0 < config.qty) (paired : venues.Paired config) {event : MakerEvent}
    (served : event.Served) :
    (venues.step config event).inventory = venues.inventory ∧
      (venues.step config event).hedged = venues.hedged + SignType.sign venues.inventory * config.qty ∧
      (venues.step config event).book.length = venues.book.length + 2 := by
  cases event with
  | fill index => cases served
  | poll ticker unread bidAnswer askAnswer hedgeAnswer =>
    obtain ⟨usable, rfl, rfl, rfl, rfl⟩ := served
    obtain ⟨fair, read⟩ := Option.isSome_iff_exists.mp usable
    rw [Venues.step_poll venues read, paired.sign_inventory positive]
    refine ⟨rfl, ?_, by simp⟩
    simp only [if_true]
    congr 1
    rcases lt_trichotomy ((venues.book.map Request.side).count .buy) ((venues.book.map Request.side).count .sell)
      with fewer | level | more
    · have direction := sign_pos (sub_pos.mpr (Nat.cast_lt (α := ℚ).mpr fewer))
      rw [if_neg fewer.ne, if_pos fewer, direction]
      simp
    · rw [if_pos level, level, sub_self, sign_zero]
      simp
    · have direction := sign_neg (sub_neg.mpr (Nat.cast_lt (α := ℚ).mpr more))
      rw [if_neg more.ne', if_neg more.le.not_gt, direction]
      simp

/-- After any run, each poll that is served adds to the hedge in the direction of the inventory that it should
offset, and again in the next poll: nothing is ever flattened, and two more quotes rest. -/
theorem CrossFixedMakerConfig.hedge_runs_away (positive : 0 < config.qty) {events polls : List MakerEvent}
    (alike : ∀ event ∈ events, event.Alike) (served : ∀ event ∈ polls, event.Served) :
    let before := events.foldl (Venues.step config) .new
    let after := polls.foldl (Venues.step config) before
    after.inventory = before.inventory ∧
      after.hedged = before.hedged + polls.length * (SignType.sign before.inventory * config.qty) ∧
      after.book.length = before.book.length + 2 * polls.length := by
  intro before
  have start : before.Paired config := Venues.Paired.new.run alike
  generalize before = venues at start
  induction polls generalizing venues with
  | nil => simp
  | cons poll rest ih =>
    obtain ⟨inventory, hedged, length⟩ := start.served positive (served poll List.mem_cons_self)
    have next := start.step (served poll List.mem_cons_self).alike
    obtain ⟨kept, total, resting⟩ :=
      ih (fun other member => served other (List.mem_cons_of_mem poll member)) (venues.step config poll) next
    rw [inventory] at kept
    rw [hedged, inventory] at total
    rw [length] at resting
    refine ⟨kept, total.trans ?_, resting.trans ?_⟩
    · rw [List.length_cons]
      push_cast
      ring
    · rw [List.length_cons]
      ring

/-- One bid is filled, and three polls later the maker is long four units for the one that it meant to offset. -/
theorem hedge_runs_away_long :
    let config : CrossFixedMakerConfig := ⟨⟨⟨"binance", ""⟩, ⟨"okx", ""⟩, "BTCUSDT"⟩, 1 / 1000, 1⟩
    let poll : MakerEvent := .poll (.ok (some (.ok 100))) none none none none
    let after := [poll, poll, poll].foldl (Venues.step config) ([poll, .fill 0].foldl (Venues.step config) .new)
    after.inventory = 1 ∧ after.hedged = 3 ∧ after.book.length = 7 := by
  intro config poll
  have positive : 0 < config.qty := by decide
  have served : poll.Served := ⟨by decide, rfl, rfl, rfl, rfl⟩
  have alike : ∀ event ∈ [poll, .fill 0], event.Alike := by
    simp [MakerEvent.Alike, poll]
  have polls : ∀ event ∈ [poll, poll, poll], event.Served := by
    simp [served]
  obtain ⟨inventory, hedged, length⟩ := CrossFixedMakerConfig.hedge_runs_away positive alike polls
  refine ⟨inventory.trans ?_, hedged.trans ?_, length.trans ?_⟩
  · decide +kernel
  · decide +kernel
  · decide +kernel

end LongTrader.Strategy.CrossVenue
