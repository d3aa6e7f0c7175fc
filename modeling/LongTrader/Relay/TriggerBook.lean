import LongTrader.Relay.Triggers

/-! The conditional orders of the mock venue, as a client behind a chain of workers sees them. -/

namespace LongTrader.Relay

/-- A conditional order as the mock venue keeps it. -/
structure TriggerRow where
  id : String
  request : TriggerOrderRequest
  status : TriggerOrderStatus
  createdAtMs : Int
  deriving DecidableEq, Repr

def TriggerRow.order (row : TriggerRow) : TriggerOrder where
  id := row.id
  clientOrderId := row.request.clientOrderId
  symbol := row.request.symbol
  isBuy := row.request.isBuy
  triggerPrice := row.request.triggerPrice
  qty := row.request.qty
  reduceOnly := row.request.reduceOnly
  status := row.status
  createdAtMs := row.createdAtMs
  orderId := none
  triggeredAtMs := none

/-- What `MockAdapter` keeps of conditional orders, and the counter that all its ids are drawn from. -/
structure TriggerBook where
  ids : Nat
  rows : List TriggerRow
  deriving DecidableEq, Repr

def triggerId (id : Nat) : String := "trigger-" ++ toString id

/-- The first row of an id, marked as cancelled. -/
def cancelRow (orderId : String) (rows : List TriggerRow) : List TriggerRow :=
  rows.replaceF fun row => if row.id = orderId then some { row with status := .canceled } else none

/-- `MockAdapter` as a `TriggerOrderGateway`. -/
def mockTriggers (ops : DecimalOps) : TriggerPort TriggerBook where
  create now _ request book :=
    match validateTriggerRequest ops request with
    | .error error => (.error error, book)
    | .ok () =>
      let row : TriggerRow := ⟨triggerId book.ids, request, .resting, now⟩
      (.ok row.order, ⟨(book.ids + 1) % 2 ^ 64, book.rows ++ [row]⟩)
  cancel _ orderId _ book :=
    match book.rows.find? (·.id = orderId) with
    | none => (.error (.notFound ("trigger order " ++ orderId)), book)
    | some row =>
      if row.status ≠ .resting then
        (.error (.invalidArgument ("trigger order " ++ orderId ++ " is " ++ row.status.asStr ++
          " and can no longer be cancelled")), book)
      else
        (.ok { row.order with id := orderId, status := .canceled },
          { book with rows := cancelRow orderId book.rows })
  list _ symbols book :=
    .ok ((book.rows.filter fun row => symbols.isEmpty || symbols.contains row.request.symbol).map
      TriggerRow.order)

structure TriggerRow.Sound (row : TriggerRow) : Prop where
  fits : row.request.Fits
  instant : Instant row.createdAtMs
  numbered : ∃ id, row.id = triggerId id

def TriggerBook.Sound (book : TriggerBook) : Prop := ∀ row ∈ book.rows, row.Sound

theorem isBlank_triggerId (id : Nat) : isBlank (triggerId id) = false := by
  have first : (triggerId id).toList = 't' :: ("rigger-" ++ toString id).toList := by
    simp [triggerId]
  rw [isBlank, first, List.all_cons]
  rfl

theorem triggerId_ne (id : Nat) : triggerId id ≠ "" := by
  intro empty
  have blank := isBlank_triggerId id
  rw [empty] at blank
  cases blank

theorem TriggerRow.Sound.order {row : TriggerRow} (sound : row.Sound) : row.order.Fits where
  triggerPrice := sound.fits.triggerPrice
  qty := sound.fits.qty
  createdAtMs := sound.instant
  triggeredAtMs _ present := by cases present

/-- Cancelling a row changes its status alone. -/
theorem mem_cancelRow {orderId : String} {rows : List TriggerRow} {row : TriggerRow}
    (member : row ∈ cancelRow orderId rows) : ∃ old ∈ rows, row = { old with status := row.status } := by
  induction rows with
  | nil => cases member
  | cons head rest ih =>
    rw [cancelRow, List.replaceF_cons] at member
    by_cases same : head.id = orderId
    · rw [if_pos same] at member
      rcases List.mem_cons.mp member with rfl | later
      · exact ⟨head, List.mem_cons_self .., rfl⟩
      · exact ⟨row, List.mem_cons_of_mem _ later, rfl⟩
    · rw [if_neg same] at member
      rcases List.mem_cons.mp member with rfl | later
      · exact ⟨row, List.mem_cons_self .., rfl⟩
      · obtain ⟨old, before, kept⟩ := ih later
        exact ⟨old, List.mem_cons_of_mem _ before, kept⟩

variable (ops : DecimalOps)

theorem create_sound {now : Int} {request : TriggerOrderRequest} {book : TriggerBook}
    (instant : Instant now) (fits : request.Fits) (sound : book.Sound) (exchange : ExchangeId) :
    ((mockTriggers ops).create now exchange request book).2.Sound := by
  simp only [mockTriggers]
  cases validateTriggerRequest ops request with
  | error error => exact sound
  | ok =>
    intro row member
    rcases List.mem_append.mp member with old | fresh
    · exact sound row old
    · rw [List.mem_singleton.mp fresh]
      exact ⟨fits, instant, book.ids, rfl⟩

theorem cancel_sound {book : TriggerBook} (sound : book.Sound) (exchange : ExchangeId)
    (orderId symbol : String) : ((mockTriggers ops).cancel exchange orderId symbol book).2.Sound := by
  simp only [mockTriggers]
  cases found : book.rows.find? (·.id = orderId) with
  | none => exact sound
  | some row =>
    dsimp only
    split
    · exact sound
    · intro changed member
      obtain ⟨old, before, kept⟩ := mem_cancelRow member
      have past := sound old before
      rw [kept]
      exact ⟨past.fits, past.instant, past.numbered⟩

/-- The mock venue keeps to the terms of conditional orders. -/
theorem mockTriggers_honours : Service.Honours (triggerTerms ops TriggerBook.Sound) (mockTriggers ops).serve where
  keeps call book asked sound := by
    cases call with
    | create now exchange request => exact create_sound ops asked.1 asked.2 sound exchange
    | cancel exchange orderId symbol => exact cancel_sound ops sound exchange orderId symbol
    | list exchange symbols => exact sound
  answers call book reply asked sound answered := by
    cases call with
    | create now exchange request =>
      simp only [TriggerPort.serve, mockTriggers] at answered
      cases valid : validateTriggerRequest ops request with
      | error error =>
        rw [valid] at answered
        cases answered
      | ok =>
        rw [valid] at answered
        obtain rfl := Except.ok.inj answered
        have row : TriggerRow.Sound ⟨triggerId book.ids, request, .resting, now⟩ :=
          ⟨asked.2, asked.1, book.ids, rfl⟩
        exact ⟨row.order, triggerId_ne book.ids⟩
    | cancel exchange orderId symbol =>
      simp only [TriggerPort.serve, mockTriggers] at answered
      cases found : book.rows.find? (·.id = orderId) with
      | none =>
        rw [found] at answered
        cases answered
      | some row =>
        rw [found] at answered
        dsimp only at answered
        split at answered
        · cases answered
        · obtain rfl := Except.ok.inj answered
          have past := sound row (List.mem_of_find?_eq_some found)
          exact ⟨past.fits.triggerPrice, past.fits.qty, past.instant, fun _ present => by cases present⟩
    | list exchange symbols =>
      obtain rfl := Except.ok.inj answered
      intro order member
      obtain ⟨row, kept, rfl⟩ := List.mem_map.mp member
      exact (sound row (List.mem_of_mem_filter kept)).order
  refuses call book asked sound improper := by
    cases call with
    | create now exchange request =>
      simp only [TriggerPort.serve, mockTriggers]
      cases valid : validateTriggerRequest ops request with
      | error error => exact ⟨rfl, rfl⟩
      | ok => exact absurd valid improper
    | cancel exchange orderId symbol =>
      have unknown : book.rows.find? (·.id = orderId) = none := by
        rw [List.find?_eq_none]
        intro row member same
        obtain ⟨id, named⟩ := (sound row member).numbered
        apply improper
        change isBlank orderId = false
        rw [← of_decide_eq_true same, named]
        exact isBlank_triggerId id
      simp only [TriggerPort.serve, mockTriggers, unknown]
      exact ⟨rfl, trivial⟩
    | list exchange symbols => exact absurd trivial improper

/-- A stop of a long position. -/
def stopLoss : TriggerOrderRequest := ⟨"stop", "BTC/USDT", false, ⟨95000, 0⟩, ⟨15, 1⟩, true⟩

/-- The stop is placed, and cancelled twice. -/
def stopCalls (id : Nat) : List TriggerCall :=
  [.create 1000 ⟨"mock", ""⟩ stopLoss, .cancel ⟨"mock", ""⟩ (triggerId id) "BTC/USDT",
    .cancel ⟨"mock", ""⟩ (triggerId id) "BTC/USDT"]

theorem stopCalls_ask (id : Nat) :
    ∀ call ∈ stopCalls id, (triggerTerms rustDecimal TriggerBook.Sound).asks call := by
  intro call member
  rcases List.mem_cons.mp member with rfl | later
  · exact ⟨⟨by decide, by decide⟩, by decide, by decide⟩
  · rcases List.mem_pair.mp later with rfl | rfl <;> exact trivial

/-- Behind two workers. -/
theorem chain_is_transparent_twice :
    (Service.run (chain rustDecimal connectProtocol [openWorker, openWorker]
        (mockTriggers rustDecimal)).serve (stopCalls 1) ⟨1, []⟩).1.map Except.toOption =
      (Service.run (mockTriggers rustDecimal).serve (stopCalls 1) ⟨1, []⟩).1.map Except.toOption ∧
    (Service.run (chain rustDecimal connectProtocol [openWorker, openWorker]
        (mockTriggers rustDecimal)).serve (stopCalls 1) ⟨1, []⟩).2 =
      (Service.run (mockTriggers rustDecimal).serve (stopCalls 1) ⟨1, []⟩).2 :=
  chain_is_transparent rustDecimal_lossless (mockTriggers_honours rustDecimal) [openWorker, openWorker]
    (stopCalls_ask 1) (fun row member => by cases member)

/-- A record after what a client was told of an answer. -/
def recordAnswer (records : List TriggerOrder) : TriggerCall × Option TriggerReply → List TriggerOrder
  | (.create .., some (.order order)) => records ++ [order]
  | (.cancel .., some (.order order)) =>
    records.map fun record => if record.id = order.id then order else record
  | _ => records

/-- The conditional orders as a client knows them from the answers that it got. -/
def recorded (log : List (TriggerCall × Option TriggerReply)) : List TriggerOrder :=
  log.foldl recordAnswer []

/-- An id is drawn for something else than a conditional order. -/
def TriggerBook.draw (book : TriggerBook) : TriggerBook := { book with ids := (book.ids + 1) % 2 ^ 64 }

/-- The events of a venue, of which a client sees the calls. -/
abbrev TriggerEvent := Service.Event TriggerCall Unit

def history (port : TriggerPort TriggerBook) :
    List TriggerEvent → TriggerBook → List (TriggerCall × Option TriggerReply) × TriggerBook :=
  Service.history port.serve fun _ => TriggerBook.draw

/-- The ids of a book are those that were drawn for its rows, each once. -/
structure TriggerBook.Numbered (book : TriggerBook) : Prop where
  drawn : ∀ row ∈ book.rows, ∃ id < book.ids, row.id = triggerId id
  distinct : (book.rows.map TriggerRow.id).Nodup

def TriggerBook.orders (book : TriggerBook) : List TriggerOrder := book.rows.map TriggerRow.order

theorem triggerId_injective {first second : Nat} (same : triggerId first = triggerId second) :
    first = second := by
  have digits : (toString first).toList = (toString second).toList := by
    have text := congrArg String.toList same
    simpa [triggerId] using text
  have texts : toString first = toString second := String.toList_inj.mp digits
  rw [Nat.toString_eq_ofList_toDigits, Nat.toString_eq_ofList_toDigits] at texts
  have chars := congrArg (fun text => Nat.ofDigitChars 10 (String.toList text) 0) texts
  simpa [Nat.ofDigitChars_ten_toDigits] using chars

/-- Only one row has an id, and it is the first. -/
theorem cancelRow_eq_map {orderId : String} {rows : List TriggerRow}
    (distinct : (rows.map TriggerRow.id).Nodup) : cancelRow orderId rows =
      rows.map fun row => if row.id = orderId then { row with status := .canceled } else row := by
  induction rows with
  | nil => rfl
  | cons head rest ih =>
    obtain ⟨fresh, others⟩ := List.nodup_cons.mp distinct
    rw [cancelRow, List.replaceF_cons, List.map_cons]
    by_cases same : head.id = orderId
    · have untouched : ∀ row ∈ rest,
          (if row.id = orderId then { row with status := .canceled } else row) = row := by
        intro row member
        apply if_neg
        intro again
        exact fresh (List.mem_map.mpr ⟨row, member, again.trans same.symm⟩)
      rw [if_pos same, if_pos same, List.map_congr_left untouched, List.map_id']
    · rw [if_neg same, if_neg same]
      exact congrArg _ (ih others)

theorem cancelRow_ids (orderId : String) (rows : List TriggerRow) :
    (cancelRow orderId rows).map TriggerRow.id = rows.map TriggerRow.id := by
  induction rows with
  | nil => rfl
  | cons head rest ih =>
    rw [cancelRow, List.replaceF_cons]
    by_cases same : head.id = orderId
    · rw [if_pos same]
      rfl
    · rw [if_neg same]
      exact congrArg (head.id :: ·) ih

/-- What one call does to the records of the venue is what its answer tells the client. -/
theorem serve_recorded {book : TriggerBook} (numbered : book.Numbered) (call : TriggerCall) :
    ((mockTriggers ops).serve call book).2.orders =
      recordAnswer book.orders (call, ((mockTriggers ops).serve call book).1.toOption) := by
  cases call with
  | create now exchange request =>
    simp only [TriggerPort.serve, mockTriggers]
    cases validateTriggerRequest ops request with
    | error error => rfl
    | ok => exact List.map_append
  | cancel exchange orderId symbol =>
    simp only [TriggerPort.serve, mockTriggers]
    cases found : book.rows.find? (·.id = orderId) with
    | none => rfl
    | some row =>
      have here : row.id = orderId := by simpa using List.find?_some found
      have member := List.mem_of_find?_eq_some found
      dsimp only
      split
      · rfl
      · change (cancelRow orderId book.rows).map TriggerRow.order =
          book.orders.map fun record => if record.id = orderId then _ else record
        rw [cancelRow_eq_map numbered.distinct, TriggerBook.orders, List.map_map, List.map_map]
        apply List.map_congr_left
        intro other present
        by_cases same : other.id = orderId
        · have one : other = row := by
            apply List.inj_on_of_nodup_map numbered.distinct present member
            exact same.trans here.symm
          simp only [Function.comp_apply, one, here, if_true]
          simp [TriggerRow.order, here]
        · simp only [Function.comp_apply, if_neg same]
          exact (if_neg same).symm
  | list exchange symbols => rfl

theorem serve_numbered {book : TriggerBook} (numbered : book.Numbered) (room : book.ids + 1 < 2 ^ 64)
    (call : TriggerCall) : ((mockTriggers ops).serve call book).2.Numbered ∧
      ((mockTriggers ops).serve call book).2.ids ≤ book.ids + 1 := by
  cases call with
  | create now exchange request =>
    simp only [TriggerPort.serve, mockTriggers]
    cases validateTriggerRequest ops request with
    | error error => exact ⟨numbered, Nat.le_succ _⟩
    | ok =>
      rw [Nat.mod_eq_of_lt room]
      refine ⟨⟨?_, ?_⟩, Nat.le_refl _⟩
      · intro row member
        rcases List.mem_append.mp member with old | fresh
        · obtain ⟨id, below, named⟩ := numbered.drawn row old
          exact ⟨id, Nat.lt_succ_of_lt below, named⟩
        · rw [List.mem_singleton.mp fresh]
          exact ⟨book.ids, Nat.lt_succ_self _, rfl⟩
      · rw [List.map_append, List.nodup_append]
        refine ⟨numbered.distinct, List.nodup_singleton _, ?_⟩
        intro id old fresh new
        rw [List.mem_singleton.mp new]
        obtain ⟨row, member, rfl⟩ := List.mem_map.mp old
        obtain ⟨drawn, below, named⟩ := numbered.drawn row member
        intro same
        have again := triggerId_injective (named.symm.trans same)
        omega
  | cancel exchange orderId symbol =>
    simp only [TriggerPort.serve, mockTriggers]
    cases book.rows.find? (·.id = orderId) with
    | none => exact ⟨numbered, Nat.le_succ _⟩
    | some row =>
      dsimp only
      split
      · exact ⟨numbered, Nat.le_succ _⟩
      · refine ⟨⟨?_, ?_⟩, Nat.le_succ _⟩
        · intro changed member
          obtain ⟨old, before, kept⟩ := mem_cancelRow member
          rw [kept]
          exact numbered.drawn old before
        · change ((cancelRow orderId book.rows).map TriggerRow.id).Nodup
          rw [cancelRow_ids]
          exact numbered.distinct
  | list exchange symbols => exact ⟨numbered, Nat.le_succ _⟩

/-- With distinct ids a row is found by its id alone. -/
theorem find?_row {rows : List TriggerRow} (distinct : (rows.map TriggerRow.id).Nodup) (orderId : String)
    (test : TriggerRow → Bool) : rows.find? (fun row => decide (row.id = orderId) && test row) =
      (rows.find? (·.id = orderId)).filter test := by
  induction rows with
  | nil => rfl
  | cons head rest ih =>
    obtain ⟨fresh, others⟩ := List.nodup_cons.mp distinct
    by_cases same : head.id = orderId
    · have unique : rest.find? (fun row => decide (row.id = orderId) && test row) = none := by
        rw [List.find?_eq_none]
        intro row member passes
        apply fresh
        have here : row.id = orderId := by simp_all
        exact List.mem_map.mpr ⟨row, member, here.trans same.symm⟩
      cases passes : test head <;> simp [same, passes, unique, Option.filter]
    · simpa [same] using ih others

theorem cancel_recorded {book : TriggerBook} (numbered : book.Numbered) (exchange : ExchangeId)
    (orderId symbol : String) : ((mockTriggers ops).cancel exchange orderId symbol book).1.toOption =
      (book.orders.find? fun order => order.id = orderId && order.status = .resting).map
        fun order => { order with status := .canceled } := by
  have rows : book.orders.find? (fun order => order.id = orderId && order.status = .resting) =
      ((book.rows.find? (·.id = orderId)).filter (·.status = .resting)).map TriggerRow.order := by
    rw [TriggerBook.orders, List.find?_map, ← find?_row numbered.distinct]
    rfl
  rw [rows]
  simp only [mockTriggers]
  cases found : book.rows.find? (·.id = orderId) with
  | none => rfl
  | some row =>
    have here : row.id = orderId := by simpa using List.find?_some found
    by_cases resting : row.status = .resting
    · simp [resting, Option.filter, Except.toOption, TriggerRow.order, here]
    · simp [resting, Option.filter, Except.toOption]

section Client

variable {ops} {connect : Connect}

/-- With so many events to come, the ids do not run out, and what the client was told is the book. -/
structure TriggerBook.Known (left : Nat) (log : List (TriggerCall × Option TriggerReply))
    (book : TriggerBook) : Prop where
  room : book.ids + left < 2 ^ 64
  numbered : book.Numbered
  records : recorded log = book.orders

theorem TriggerBook.Known.draw {left : Nat} {log : List (TriggerCall × Option TriggerReply)}
    {book : TriggerBook} (known : book.Known (left + 1) log) : book.draw.Known left log := by
  have room := known.room
  have next : book.draw = { book with ids := book.ids + 1 } := by
    rw [TriggerBook.draw, Nat.mod_eq_of_lt (by omega)]
  rw [next]
  refine ⟨by simp only; omega, ⟨?_, known.numbered.distinct⟩, known.records⟩
  intro row member
  obtain ⟨id, below, named⟩ := known.numbered.drawn row member
  exact ⟨id, Nat.lt_succ_of_lt below, named⟩

theorem TriggerBook.Known.serve {left : Nat} {log : List (TriggerCall × Option TriggerReply)}
    {book : TriggerBook} (known : book.Known (left + 1) log) (call : TriggerCall) :
    ((mockTriggers ops).serve call book).2.Known left
      (log ++ [(call, ((mockTriggers ops).serve call book).1.toOption)]) := by
  have room := known.room
  obtain ⟨numbered, ids⟩ := serve_numbered ops known.numbered (by omega) call
  refine ⟨by omega, numbered, ?_⟩
  rw [recorded, List.foldl_append, ← recorded, known.records]
  exact (serve_recorded ops known.numbered call).symm

/-- Through any chain of workers, and whatever else the venue is used for, a client that only keeps what
it was answered knows the conditional orders of the venue: no two have an id in common, a listing is what
the answers add up to, and just those that still rest can be cancelled, each therefore once. -/
theorem answers_are_the_book (lossless : ops.Lossless) (workers : List WorkerProxy)
    {events : List TriggerEvent} (room : 1 + events.length < 2 ^ 64)
    (asked : ∀ call, .call call ∈ events → (triggerTerms ops TriggerBook.Sound).asks call)
    {log : List (TriggerCall × Option TriggerReply)} {book : TriggerBook}
    (happened : history (chain ops connect workers (mockTriggers ops)) events ⟨1, []⟩ = (log, book)) :
    ((recorded log).map TriggerOrder.id).Nodup ∧
      (∀ exchange symbols,
        (chain ops connect workers (mockTriggers ops)).list exchange symbols book =
          .ok ((recorded log).filter fun order => symbols.isEmpty || symbols.contains order.symbol)) ∧
      ∀ exchange orderId symbol,
        ((chain ops connect workers (mockTriggers ops)).cancel exchange orderId symbol book).1.toOption =
          ((recorded log).find? fun order => order.id = orderId && order.status = .resting).map
            fun order => { order with status := .canceled } := by
  have agree := @chain_agrees _ ops connect lossless _ _ (mockTriggers_honours ops) workers
  have none : TriggerBook.Sound ⟨1, []⟩ := fun row member => by cases member
  have fresh : TriggerBook.Numbered ⟨1, []⟩ := ⟨fun row member => (by cases member), List.nodup_nil⟩
  have start : TriggerBook.Known events.length [] ⟨1, []⟩ := ⟨room, fresh, rfl⟩
  obtain ⟨sound, known⟩ := agree.history (mockTriggers_honours ops) (fun _ => TriggerBook.draw)
    (fun left log book => book.Known left log) (fun left log call book _ _ known => known.serve call)
    (fun left log other book sound known => ⟨sound, known.draw⟩) asked none start
  rw [history] at happened
  rw [happened] at sound known
  have numbered := known.numbered
  rw [show recorded log = book.orders from known.records]
  refine ⟨?_, fun exchange symbols => ?_, fun exchange orderId symbol => ?_⟩
  · rw [TriggerBook.orders, List.map_map]
    exact numbered.distinct
  · have listed : (mockTriggers ops).list exchange symbols book =
        .ok (book.orders.filter fun order => symbols.isEmpty || symbols.contains order.symbol) := by
      rw [TriggerBook.orders, List.filter_map]
      rfl
    have same := agree.reply (.list exchange symbols) trivial sound
    simp only [TriggerPort.serve] at same
    have orders := Service.toOption_of_map (fun _ _ => TriggerReply.orders.inj) same
    rw [listed] at orders
    exact Service.toOption_eq_some.mp orders
  · rw [← cancel_recorded ops numbered exchange orderId symbol]
    have same := agree.reply (.cancel exchange orderId symbol) trivial sound
    simp only [TriggerPort.serve] at same
    exact Service.toOption_of_map (fun _ _ => TriggerReply.order.inj) same

/-- An id is drawn for something else, and then the stop is placed and cancelled twice. -/
theorem answers_are_the_book_of_a_stop :
    let left := history (chain rustDecimal connectProtocol [openWorker] (mockTriggers rustDecimal))
      (.other () :: (stopCalls 2).map .call) ⟨1, []⟩
    ((recorded left.1).map TriggerOrder.id).Nodup ∧
      (∀ exchange symbols,
        (chain rustDecimal connectProtocol [openWorker] (mockTriggers rustDecimal)).list exchange symbols
            left.2 =
          .ok ((recorded left.1).filter fun order => symbols.isEmpty || symbols.contains order.symbol)) ∧
      ∀ exchange orderId symbol,
        ((chain rustDecimal connectProtocol [openWorker] (mockTriggers rustDecimal)).cancel exchange orderId
            symbol left.2).1.toOption =
          ((recorded left.1).find? fun order => order.id = orderId && order.status = .resting).map
            fun order => { order with status := .canceled } := by
  have asked : ∀ call, .call call ∈ (.other () :: (stopCalls 2).map .call : List TriggerEvent) →
      (triggerTerms rustDecimal TriggerBook.Sound).asks call := by
    intro call member
    rcases List.mem_cons.mp member with drawn | called
    · cases drawn
    · obtain ⟨other, present, same⟩ := List.mem_map.mp called
      exact Service.Event.call.inj same ▸ stopCalls_ask 2 other present
  exact answers_are_the_book rustDecimal_lossless [openWorker] (by decide) asked rfl

end Client

end LongTrader.Relay
