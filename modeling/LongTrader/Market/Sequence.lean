import LongTrader.Market.Stream
import LongTrader.Runs
import Mathlib.Data.List.Induction

/-! The sequence numbers of a market stream. The poll tasks take them from one counter before they
fetch and send, so the order of the sends decides what the consumer sees. -/

namespace LongTrader.Market

open Interleave Overflow

/-- `is_sequence_gap`. -/
def isSequenceGap (prev next : UInt64) : Bool := next ≠ prev + 1

section Sequence

variable {reports : String → String → Bool} {n : Nat}

/-- The fetch of a number failed. -/
def Failed (history : List (Entry (sig reports) (StreamTask n))) (number : UInt64) : Prop :=
  ∃ pre task symbol error post, pending (own task pre) = some number ∧
    (history = pre ++ ⟨task, ⟨.fetchOrderBook symbol, .error error⟩⟩ :: post ∨
      history = pre ++ ⟨task, ⟨.fetchTicker symbol, .error error⟩⟩ :: post)

/-- The event of a number was replaced in the buffer, or evicted from it. -/
def Dropped (settings : Settings String MarketDataEvent)
    (history : List (Entry (sig reports) (StreamTask n))) (number : UInt64) : Prop :=
  ∃ event, event.header.sequence = number ∧
    (event ∈ replaced settings (channelHistory history) ∨ event ∈ evicted (channelHistory history))

/-- The event that an entry sends. -/
def sentBy (settings : Settings String MarketDataEvent) (entry : Entry (sig reports) (StreamTask n)) :
    Option MarketDataEvent :=
  (channelAct entry.act).bind (sentItem settings)

/-- The number before the one that an entry takes. -/
def previousOf (entry : Entry (sig reports) (StreamTask n)) : Option UInt64 :=
  match entry.act with
  | ⟨.fetchAdd, previous⟩ => some previous
  | _ => none

/-- An action that sends an event finds every lower number settled, and under `Coalesce` no event of
its key in the buffer but the newest there; and one that takes a number finds one left. -/
structure Orderly (settings : Settings String MarketDataEvent)
    (pre : List (Entry (sig reports) (StreamTask n))) (entry : Entry (sig reports) (StreamTask n)) :
    Prop where
  settled : ∀ event ∈ sentBy settings entry, ∀ id, entry.task ≠ .poll id →
    ∀ number ∈ pending (own (.poll id) pre), event.header.sequence < number
  newest : settings.policy = .coalesce → ∀ event ∈ sentBy settings entry,
    ∀ slot ∈ (replacing settings (channelHistory pre)).1.dropLast, slot.1 ≠ settings.keyOf event
  unspent : ∀ previous ∈ previousOf entry, previous.toNat + 1 < 2 ^ 64

instance (settings : Settings String MarketDataEvent) (pre : List (Entry (sig reports) (StreamTask n)))
    (entry : Entry (sig reports) (StreamTask n)) : Decidable (Orderly settings pre entry) :=
  -- A number is looked up where it is, not searched for among all of them.
  haveI : ∀ {α : Type} (found : Option α) (p : α → Prop) [DecidablePred p],
      Decidable (∀ value ∈ found, p value) := fun found _ _ => found.decidableForallMem
  decidable_of_iff
    ((∀ event ∈ sentBy settings entry, ∀ id, entry.task ≠ .poll id →
        ∀ number ∈ pending (own (.poll id) pre), event.header.sequence < number) ∧
      (settings.policy = .coalesce → ∀ event ∈ sentBy settings entry,
        ∀ slot ∈ (replacing settings (channelHistory pre)).1.dropLast, slot.1 ≠ settings.keyOf event) ∧
      ∀ previous ∈ previousOf entry, previous.toNat + 1 < 2 ^ 64)
    ⟨fun ⟨settled, newest, unspent⟩ => ⟨settled, newest, unspent⟩,
      fun orderly => ⟨orderly.settled, orderly.newest, orderly.unspent⟩⟩

/-- Every step of a run is orderly. -/
def OrderlyRun (settings : Settings String MarketDataEvent)
    (history : List (Entry (sig reports) (StreamTask n))) : Prop :=
  Runs.Along (fun pre entry => pre ++ [entry]) (Orderly settings) [] history

instance (settings : Settings String MarketDataEvent)
    (history : List (Entry (sig reports) (StreamTask n))) : Decidable (OrderlyRun settings history) :=
  inferInstanceAs (Decidable (Runs.Along _ _ _ _))

theorem orderlyRun_iff {settings : Settings String MarketDataEvent}
    {history : List (Entry (sig reports) (StreamTask n))} :
    OrderlyRun settings history ↔
      ∀ pre entry post, history = pre ++ entry :: post → Orderly settings pre entry := by
  have collects (pre : List (Entry (sig reports) (StreamTask n))) :
      pre.foldl (fun pre entry => pre ++ [entry]) [] = pre := by
    induction pre using List.reverseRecOn with
    | nil => rfl
    | append_singleton pre entry ih => simp [ih]
  rw [OrderlyRun, Runs.along_iff_split]
  simp only [collects]

theorem OrderlyRun.front {settings : Settings String MarketDataEvent}
    {first second : List (Entry (sig reports) (StreamTask n))}
    (orderly : OrderlyRun settings (first ++ second)) : OrderlyRun settings first := by
  rw [orderlyRun_iff] at orderly ⊢
  intro pre entry post cut
  exact orderly pre entry (post ++ second) (by rw [cut]; simp)

theorem Failed.append {first : List (Entry (sig reports) (StreamTask n))} {number : UInt64}
    (failed : Failed first number) (second : List (Entry (sig reports) (StreamTask n))) :
    Failed (first ++ second) number := by
  obtain ⟨pre, task, symbol, error, post, holds, cut⟩ := failed
  refine ⟨pre, task, symbol, error, post ++ second, holds, ?_⟩
  rcases cut with rfl | rfl
  · exact .inl (by simp)
  · exact .inr (by simp)

/-- The numbers of a stream whose every step is orderly. -/
structure Numbered (settings : Settings String MarketDataEvent)
    (history : List (Entry (sig reports) (StreamTask n))) (shared : Shared) : Prop where
  below : ∀ event ∈ sent settings (channelHistory history),
    event.header.sequence.toNat ≤ shared.seq.toNat
  taken : ∀ id number, pending (own (.poll id) history) = some number →
    number.toNat ≤ shared.seq.toNat ∧
      ∀ event ∈ sent settings (channelHistory history), event.header.sequence < number
  sorted : (sent settings (channelHistory history)).Pairwise
    fun earlier later => earlier.header.sequence < later.header.sequence
  ordered : (line (channelHistory history) shared.pipe).Sublist (sent settings (channelHistory history))
  accounted : ∀ number : UInt64, 0 < number.toNat → number.toNat ≤ shared.seq.toNat →
    (∃ id, pending (own (.poll id) history) = some number) ∨ Failed history number ∨
      ∃ event ∈ sent settings (channelHistory history), event.header.sequence = number

theorem Numbered.start (settings : Settings String MarketDataEvent) (tasks : Nat) :
    Numbered settings ([] : List (Entry (sig reports) (StreamTask n))) (Shared.new tasks) where
  below := by
    intro event member
    cases member
  taken := by
    intro id number holds
    cases holds
  sorted := List.Pairwise.nil
  ordered := List.Sublist.refl _
  accounted := by
    intro number positive most
    have none_yet : (Shared.new tasks).seq.toNat = 0 := rfl
    omega

/-- What a task has pending after one more entry. -/
theorem pending_snoc (history : List (Entry (sig reports) (StreamTask n)))
    (entry : Entry (sig reports) (StreamTask n)) :
    pending (own entry.task (history ++ [entry])) =
      pendingAfter (pending (own entry.task history)) entry.act := by
  obtain ⟨actor, act⟩ := entry
  rw [own_append, own_singleton_self, pending_append]
  rfl

theorem pending_snoc_of_ne (history : List (Entry (sig reports) (StreamTask n)))
    {entry : Entry (sig reports) (StreamTask n)} {task : StreamTask n} (other : entry.task ≠ task) :
    pending (own task (history ++ [entry])) = pending (own task history) := by
  obtain ⟨actor, act⟩ := entry
  rw [own_append, own_singleton_of_ne other, List.append_nil]

variable {settings : Settings String MarketDataEvent} {before after : Shared}
  {history : List (Entry (sig reports) (StreamTask n))} {entry : Entry (sig reports) (StreamTask n)}

/-- An action that sends nothing and settles no number. -/
theorem Numbered.quiet (numbered : Numbered settings history before)
    (sends : sent settings (channelHistory (history ++ [entry])) = sent settings (channelHistory history))
    (moves : line (channelHistory (history ++ [entry])) after.pipe =
      line (channelHistory history) before.pipe)
    (counts : after.seq = before.seq)
    (keeps : ∀ id, entry.task = .poll id →
      pendingAfter (pending (own (.poll id) history)) entry.act = pending (own (.poll id) history)) :
    Numbered settings (history ++ [entry]) after := by
  have kept (id : Fin n) : pending (own (.poll id) (history ++ [entry])) =
      pending (own (.poll id) history) := by
    by_cases actor : entry.task = .poll id
    · rw [← keeps id actor, ← actor, pending_snoc]
    · exact pending_snoc_of_ne history actor
  constructor
  · rw [sends, counts]
    exact numbered.below
  · simp only [kept, sends, counts]
    exact numbered.taken
  · rw [sends]
    exact numbered.sorted
  · rw [sends, moves]
    exact numbered.ordered
  · simp only [kept, sends, counts]
    intro number positive most
    rcases numbered.accounted number positive most with holds | failed | sent
    · exact .inl holds
    · exact .inr (.inl (failed.append _))
    · exact .inr (.inr sent)

/-- A task takes the next number. -/
theorem Numbered.takes (numbered : Numbered settings history before) {id : Fin n}
    (sends : sent settings (channelHistory (history ++ [⟨.poll id, ⟨.fetchAdd, before.seq⟩⟩])) =
      sent settings (channelHistory history))
    (moves : line (channelHistory (history ++ [⟨.poll id, ⟨.fetchAdd, before.seq⟩⟩])) after.pipe =
      line (channelHistory history) before.pipe)
    (counts : after.seq = before.seq + 1) (unspent : before.seq.toNat + 1 < 2 ^ 64)
    (idle : pending (own (.poll id) history) = none) :
    Numbered settings (history ++ [⟨.poll id, ⟨.fetchAdd, before.seq⟩⟩]) after := by
  have next : after.seq.toNat = before.seq.toNat + 1 := by
    rw [counts, UInt64.toNat_add]
    exact Nat.mod_eq_of_lt unspent
  have own_now : pending (own (.poll id) (history ++ [⟨.poll id, ⟨.fetchAdd, before.seq⟩⟩])) =
      some after.seq := by
    rw [counts]
    exact pending_snoc history ⟨.poll id, ⟨.fetchAdd, before.seq⟩⟩
  have others (other : Fin n) (different : id ≠ other) :
      pending (own (.poll other) (history ++ [⟨.poll id, ⟨.fetchAdd, before.seq⟩⟩])) =
        pending (own (.poll other) history) :=
    pending_snoc_of_ne history (by simpa using different)
  constructor
  · rw [sends, next]
    intro event member
    exact (numbered.below event member).trans (Nat.le_succ _)
  · intro other number holds
    rw [sends, next]
    by_cases same : id = other
    · subst same
      obtain rfl := Option.some.inj (own_now.symm.trans holds)
      refine ⟨next.le, fun event member => ?_⟩
      rw [UInt64.lt_iff_toNat_lt, next]
      exact Nat.lt_succ_of_le (numbered.below event member)
    · rw [others other same] at holds
      obtain ⟨most, above⟩ := numbered.taken other number holds
      exact ⟨most.trans (Nat.le_succ _), above⟩
  · rw [sends]
    exact numbered.sorted
  · rw [sends, moves]
    exact numbered.ordered
  · intro number positive most
    rw [sends]
    by_cases newest : number.toNat = before.seq.toNat + 1
    · have same : number = after.seq := UInt64.toNat_inj.mp (newest.trans next.symm)
      exact .inl ⟨id, by rw [own_now, same]⟩
    · rcases numbered.accounted number positive (by omega) with ⟨other, holds⟩ | failed | found
      · have different : id ≠ other := by
          rintro rfl
          rw [idle] at holds
          cases holds
        exact .inl ⟨other, by rw [others other different, holds]⟩
      · exact .inr (.inl (failed.append _))
      · exact .inr (.inr found)

/-- A number is settled: its fetch fails. -/
theorem Numbered.fails (numbered : Numbered settings history before)
    (sends : sent settings (channelHistory (history ++ [entry])) = sent settings (channelHistory history))
    (moves : line (channelHistory (history ++ [entry])) after.pipe =
      line (channelHistory history) before.pipe)
    (counts : after.seq = before.seq) {id : Fin n} (actor : entry.task = .poll id)
    (settles : ∀ number, pendingAfter number entry.act = none)
    (fails : ∀ number, pending (own (.poll id) history) = some number → Failed (history ++ [entry]) number) :
    Numbered settings (history ++ [entry]) after := by
  have left (other : Fin n) (number : UInt64)
      (holds : pending (own (.poll other) (history ++ [entry])) = some number) :
      pending (own (.poll other) history) = some number := by
    by_cases same : entry.task = .poll other
    · rw [← same, pending_snoc, settles] at holds
      cases holds
    · rwa [pending_snoc_of_ne history same] at holds
  constructor
  · rw [sends, counts]
    exact numbered.below
  · rw [sends, counts]
    exact fun other number holds => numbered.taken other number (left other number holds)
  · rw [sends]
    exact numbered.sorted
  · rw [sends, moves]
    exact numbered.ordered
  · rw [sends, counts]
    intro number positive most
    rcases numbered.accounted number positive most with ⟨other, holds⟩ | failed | found
    · by_cases same : id = other
      · subst same
        exact .inr (.inl (fails number holds))
      · have different : entry.task ≠ .poll other := by
          rw [actor]
          simpa using same
        exact .inl ⟨other, by rw [pending_snoc_of_ne history different, holds]⟩
    · exact .inr (.inl (failed.append _))
    · exact .inr (.inr found)

/-- A task sends the event of the number it has. -/
theorem Numbered.sends (numbered : Numbered settings history before) {id : Fin n}
    {event : MarketDataEvent} (actor : entry.task = .poll id)
    (sends : sent settings (channelHistory (history ++ [entry])) =
      sent settings (channelHistory history) ++ [event])
    (moves : (line (channelHistory (history ++ [entry])) after.pipe).Sublist
      (line (channelHistory history) before.pipe ++ [event]))
    (counts : after.seq = before.seq)
    (holds : pending (own (.poll id) history) = some event.header.sequence)
    (settles : ∀ number, pendingAfter number entry.act = none)
    (settled : ∀ other, id ≠ other → ∀ number, pending (own (.poll other) history) = some number →
      event.header.sequence < number) :
    Numbered settings (history ++ [entry]) after := by
  obtain ⟨most, above⟩ := numbered.taken id _ holds
  have others (other : Fin n) (different : id ≠ other) :
      pending (own (.poll other) (history ++ [entry])) = pending (own (.poll other) history) := by
    apply pending_snoc_of_ne
    rw [actor]
    simpa using different
  constructor
  · rw [sends, counts]
    intro found member
    rcases List.mem_append.mp member with old | new
    · exact numbered.below found old
    · rw [List.mem_singleton.mp new]
      exact most
  · intro other number still
    rw [sends, counts]
    by_cases same : id = other
    · subst same
      rw [← actor, pending_snoc, settles] at still
      cases still
    · rw [others other same] at still
      obtain ⟨bound, later⟩ := numbered.taken other number still
      refine ⟨bound, fun found member => ?_⟩
      rcases List.mem_append.mp member with old | new
      · exact later found old
      · rw [List.mem_singleton.mp new]
        exact settled other same number still
  · rw [sends, List.pairwise_append]
    refine ⟨numbered.sorted, List.pairwise_singleton _ _, fun earlier old later new => ?_⟩
    rw [List.mem_singleton.mp new]
    exact above earlier old
  · rw [sends]
    exact moves.trans (numbered.ordered.append_right _)
  · rw [sends, counts]
    intro number positive bound
    rcases numbered.accounted number positive bound with ⟨other, still⟩ | failed | ⟨found, member, same⟩
    · by_cases same : id = other
      · subst same
        obtain rfl := Option.some.inj (holds.symm.trans still)
        exact .inr (.inr ⟨event, by simp, rfl⟩)
      · exact .inl ⟨other, by rw [others other same, still]⟩
    · exact .inr (.inl (failed.append _))
    · exact .inr (.inr ⟨found, List.mem_append_left _ member, same⟩)

/-- A send that replaces the newest slot, or none, keeps the buffer in the order of the sends. -/
theorem pushItem_newest {buf : List (String × MarketDataEvent)} {event : MarketDataEvent}
    (fits : buf.length ≤ settings.cap)
    (newest : settings.policy = .coalesce → ∀ slot ∈ buf.dropLast, slot.1 ≠ settings.keyOf event) :
    ((pushItem settings event buf).2.map Prod.snd).Sublist (buf.map Prod.snd ++ [event]) := by
  rcases pushItem_cases fits event with ⟨coalesces, present, pushed⟩ | ⟨-, ⟨-, pushed⟩ | ⟨oldest, rest, rfl, pushed⟩⟩
  · obtain ⟨front, old, back, rfl, -, written⟩ := replace_split present event
    have last : back = [] := by
      cases back with
      | nil => rfl
      | cons next back =>
        refine absurd rfl (newest coalesces (settings.keyOf event, old) ?_)
        rw [List.dropLast_append_of_ne_nil (by simp)]
        simp
    subst last
    rw [pushed, written]
    simp
  · simp [pushed]
  · simp [pushed]

end Sequence

section Steps

variable {adapter : Adapter} {request : StreamMarketDataRequest}
  {settings : Settings String MarketDataEvent} {before after : Shared}
  {history : List (Entry (sig adapter.reports) (StreamTask request.polled.length))}
  {task : StreamTask request.polled.length} {replies : (symbol : String) → Reply adapter.reports symbol}

/-- Only a poll task sends, the event of the number it has, which is settled by it. -/
theorem Streams.sender (streams : Streams settings history before) {op : Overflow.Op MarketDataEvent}
    {ans : op.Ans String} {event : MarketDataEvent}
    (does : Does adapter request settings task (own task history) ⟨.channel op, ans⟩)
    (sends : sentItem settings ⟨op, ans⟩ = some event) :
    ∃ id, task = .poll id ∧ pending (own (.poll id) history) = some event.header.sequence ∧
      ∀ number, pendingAfter number (⟨.channel op, ans⟩ : Act (sig adapter.reports)) = none := by
  unfold sentItem at sends
  split at sends
  · rename_i item same
    obtain ⟨rfl, rfl⟩ := Act.mk.inj same
    split at sends
    · rename_i blocks
      obtain rfl := Option.some.inj sends
      cases task with
      | forwardLoop =>
        obtain ⟨inner, shown, forwards⟩ := does
        obtain rfl := Option.some.inj shown
        have idle := (streams.delivers.idle blocks).2
        rw [own_forwardLoop] at idle
        have held : (carried ((own .forwardLoop history).filterMap channelAct)).head? = some item := forwards
        rw [idle] at held
        cases held
      | poll id => exact ⟨id, rfl, does.2.1, fun _ => rfl⟩
      | consumer => rcases does.2 with is | is <;> cases is
    · cases sends
  · rename_i item gone same
    obtain ⟨rfl, rfl⟩ := Act.mk.inj same
    obtain rfl := Option.some.inj sends
    cases task with
    | forwardLoop =>
      obtain ⟨inner, shown, forwards⟩ := does
      obtain rfl := Option.some.inj shown
      exact forwards.elim
    | poll id => exact ⟨id, rfl, does.2.1, fun _ => rfl⟩
    | consumer => rcases does.2 with is | is <;> cases is
  · cases sends

/-- What a poll task does on the channel without sending settles no number, while there is a
receiver. -/
theorem Streams.unsettled (streams : Streams settings history before)
    (small : settings.cap ≤ 1024) {op : Overflow.Op MarketDataEvent} {ans : op.Ans String}
    (fires : before.pipe.exec settings op = some (ans, after.pipe)) {id : Fin request.polled.length}
    (does : Does adapter request settings (.poll id) (own (.poll id) history) ⟨.channel op, ans⟩)
    (silent : sentItem settings ⟨op, ans⟩ = none) (number : Option UInt64) :
    pendingAfter number (⟨.channel op, ans⟩ : Act (sig adapter.reports)) = number := by
  have attached := streams.delivers.attached
  cases op with
  | isClosed =>
    obtain ⟨rfl, -⟩ := Prod.mk.inj (Option.some.inj fires)
    rw [attached]
    rfl
  | push item =>
    have room : ¬ (settings.debugAssertions && decide (1024 < settings.cap)) = true := by
      simp [small]
    simp only [Pipe.exec, if_neg room] at fires
    obtain ⟨rfl, -⟩ := Prod.mk.inj (Option.some.inj fires)
    cases silent
  | send item =>
    have blocks : settings.policy = .block := does.1
    simp only [Pipe.exec, attached, Bool.false_eq_true, if_false] at fires
    split at fires
    · obtain ⟨rfl, -⟩ := Prod.mk.inj (Option.some.inj fires)
      simp [sentItem, blocks] at silent
    · cases fires
  | notifyOne | storeSourceClosed => rfl
  | loadSourceClosed | take | notified | receive | dropReceiver => exact does.elim

variable (history task) in
/-- What is done beside the channel leaves the line as it is. -/
theorem line_beside {op : Op} {ans : op.Ans adapter.reports} (other : ∀ inner, op ≠ .channel inner)
    (fires : before.exec settings replies op = some (ans, after)) :
    channelHistory (history ++ [⟨task, ⟨op, ans⟩⟩]) = channelHistory history ∧
      line (channelHistory (history ++ [⟨task, ⟨op, ans⟩⟩])) after.pipe =
        line (channelHistory history) before.pipe := by
  obtain ⟨same, unseen⟩ := exec_beside other fires
  have shows : channelHistory (history ++ [⟨task, ⟨op, ans⟩⟩]) = channelHistory history := by
    simp [channelHistory_snoc, unseen]
  exact ⟨shows, by rw [shows, same]⟩

section Channel

variable {op : Overflow.Op MarketDataEvent} {ans : op.Ans String}

theorem channelHistory_channel :
    channelHistory (history ++ [(⟨task, ⟨.channel op, ans⟩⟩ : Entry (sig adapter.reports) _)]) =
      channelHistory history ++ [entry (side task) op ans] := by
  simp [channelHistory_snoc, channelAct]

/-- A send joins the end of the line, or takes the place of the newest event there. -/
theorem Numbered.joins (numbered : Numbered settings history before)
    (streams : Streams settings history before) (counts : after.seq = before.seq)
    (does : Does adapter request settings task (own task history) ⟨.channel op, ans⟩)
    (orderly : Orderly settings history ⟨task, ⟨.channel op, ans⟩⟩) {event : MarketDataEvent}
    (sends : sentItem settings ⟨op, ans⟩ = some event)
    (moves : (line (channelHistory history ++ [entry (side task) op ans]) after.pipe).Sublist
      (line (channelHistory history) before.pipe ++ [event])) :
    Numbered settings (history ++ [⟨task, ⟨.channel op, ans⟩⟩]) after := by
  obtain ⟨id, rfl, holds, settles⟩ := streams.sender does sends
  rw [← channelHistory_channel] at moves
  refine numbered.sends rfl ?_ moves counts holds settles fun other different number still => ?_
  · rw [channelHistory_channel, sent_snoc, sends]
    rfl
  · exact orderly.settled event sends other (by simpa using different) number still

theorem Numbered.channel (numbered : Numbered settings history before)
    (streams : Streams settings history before) (small : settings.cap ≤ 1024) (leaves : op ≠ .dropReceiver)
    (fires : before.exec settings replies (.channel op) = some (ans, after))
    (does : Does adapter request settings task (own task history) ⟨.channel op, ans⟩)
    (orderly : Orderly settings history ⟨task, ⟨.channel op, ans⟩⟩) :
    Numbered settings (history ++ [⟨task, ⟨.channel op, ans⟩⟩]) after := by
  obtain ⟨inner, counts⟩ := exec_channel fires
  cases streams.delivers.moves leaves inner does.performs with
  | quiet none same buf =>
    refine numbered.quiet ?_ ?_ counts fun id actor => ?_
    · rw [channelHistory_channel, sent_snoc, none]
      simp
    · rw [channelHistory_channel, same]
    · obtain rfl : task = .poll id := actor
      exact streams.unsettled small inner does none _
  | direct event blocks sends joined buf =>
    refine numbered.joins streams counts does orderly sends ?_
    rw [joined]
  | push event buffers sends evicts front old new buf =>
    refine numbered.joins streams counts does orderly sends ?_
    have newest : settings.policy = .coalesce →
        ∀ slot ∈ before.pipe.buf.dropLast, slot.1 ≠ settings.keyOf event := by
      intro coalesces
      rw [streams.accounts.buf]
      exact orderly.newest coalesces event sends
    have kept := pushItem_newest streams.delivers.tidy.fits newest
    rw [new, old, buffered, buf, List.append_assoc]
    exact kept.append_left _

end Channel

theorem Numbered.step (numbered : Numbered settings history before)
    (streams : Streams settings history before) (small : settings.cap ≤ 1024) {op : Op}
    {ans : op.Ans adapter.reports} (keeps : op ≠ .channel .dropReceiver)
    (fires : before.exec settings replies op = some (ans, after))
    (does : Does adapter request settings task (own task history) ⟨op, ans⟩)
    (orderly : Orderly settings history ⟨task, ⟨op, ans⟩⟩) :
    Numbered settings (history ++ [⟨task, ⟨op, ans⟩⟩]) after := by
  cases op with
  | channel op =>
    exact numbered.channel streams small (fun drops => keeps (by rw [drops])) fires does orderly
  | tick | leave =>
    obtain ⟨shows, moves⟩ := line_beside history task (by simp) fires
    obtain ⟨-, rfl⟩ := Prod.mk.inj (Option.some.inj fires)
    exact numbered.quiet (by rw [shows]) moves rfl fun _ _ => rfl
  | fetchAdd =>
    obtain ⟨shows, moves⟩ := line_beside history task (by simp) fires
    obtain ⟨rfl, rfl⟩ := Prod.mk.inj (Option.some.inj fires)
    cases task with
    | poll id => exact numbered.takes (by rw [shows]) moves rfl (orderly.unspent _ rfl) does
    | forwardLoop =>
      obtain ⟨inner, shown, -⟩ := does
      cases shown
    | consumer => rcases does.2 with is | is <;> cases is
  | fetchOrderBook symbol | fetchTicker symbol =>
    obtain ⟨shows, moves⟩ := line_beside history task (by simp) fires
    obtain ⟨-, rfl⟩ := Prod.mk.inj (Option.some.inj fires)
    cases ans with
    | ok named => exact numbered.quiet (by rw [shows]) moves rfl fun _ _ => rfl
    | error error =>
      cases task with
      | poll id =>
        refine numbered.fails (by rw [shows]) moves rfl rfl (fun _ => rfl) fun number holds => ?_
        first
          | exact ⟨history, _, symbol, error, [], holds, .inl rfl⟩
          | exact ⟨history, _, symbol, error, [], holds, .inr rfl⟩
      | forwardLoop =>
        obtain ⟨inner, shown, -⟩ := does
        cases shown
      | consumer => rcases does.2 with is | is <;> cases is

end Steps

section Runs

variable {adapter : Adapter} {request : StreamMarketDataRequest} {policy : OverflowPolicy}
  {debugAssertions : Bool} {rounds reads : Nat} {drops : Bool}
  {history pre post : List (Entry (sig adapter.reports) (StreamTask request.polled.length))}
  {config : Config (machine adapter.reports (streamSettings policy debugAssertions))
    (StreamTask request.polled.length) Unit}

theorem Run.numbered
    (run : Run (pollMarketData adapter request policy debugAssertions rounds reads drops) history config)
    (kept : ∀ entry ∈ history, entry.act.op ≠ .channel .dropReceiver)
    (orderly : OrderlyRun (streamSettings policy debugAssertions) history) :
    Numbered (streamSettings policy debugAssertions) history config.state := by
  induction run with
  | start => exact .start _ _
  | @step history config task op next ans state run pending choice fires ih =>
    have earlier : ∀ entry ∈ history, entry.act.op ≠ .channel .dropReceiver :=
      fun entry member => kept entry (List.mem_append_left _ member)
    have does := (run.step pending choice fires).justified (pollMarketData_does task)
    refine (ih earlier orderly.front).step (Run.streams run earlier) ?_ ?_ fires does ?_
    · simp [streamSettings, policyChannel, BUFFER_CAP]
    · exact kept _ (List.mem_append_right _ (List.mem_singleton_self _))
    · exact orderlyRun_iff.mp orderly history _ [] rfl

/-- What was dropped stays dropped. -/
theorem Dropped.append {reports : String → String → Bool} {n : Nat}
    {settings : Settings String MarketDataEvent}
    {first : List (Entry (sig reports) (StreamTask n))} {number : UInt64}
    (dropped : Dropped settings first number) (second : List (Entry (sig reports) (StreamTask n))) :
    Dropped settings (first ++ second) number := by
  induction second using List.reverseRecOn with
  | nil => simpa using dropped
  | append_singleton second entry ih =>
    obtain ⟨event, same, lost⟩ := ih
    refine ⟨event, same, ?_⟩
    rw [← List.append_assoc, channelHistory_snoc]
    cases (channelAct entry.act).map fun act =>
        (⟨side entry.task, act⟩ : Entry (Overflow.sig String MarketDataEvent) _) with
    | none => simpa using lost
    | some last =>
      have grows : replaced settings (channelHistory (first ++ second) ++ [last]) =
          replaced settings (channelHistory (first ++ second)) ++ _ :=
        congrArg Prod.snd (replacing_snoc (channelHistory (first ++ second)) last)
      rw [Option.toList_some, grows, evicted_snoc]
      exact lost.imp (List.mem_append_left _) (List.mem_append_left _)

theorem received_channelHistory {reports : String → String → Bool} {n : Nat}
    (history : List (Entry (sig reports) (StreamTask n))) :
    received (channelHistory history) =
      history.filterMap fun entry => (channelAct entry.act).bind receivedItem := by
  rw [received, shown, channelHistory, List.filterMap_filterMap]
  refine List.filterMap_congr fun entry _ => ?_
  cases channelAct entry.act with
  | none => rfl
  | some act => rfl

/-- The receiver is dropped once, and nothing is received after. -/
theorem Run.dropped_once {entry : Entry (sig adapter.reports) (StreamTask request.polled.length)}
    (run : Run (pollMarketData adapter request policy debugAssertions rounds reads drops)
      (pre ++ entry :: post) config)
    (leaves : entry.act.op = .channel .dropReceiver) :
    (∀ earlier ∈ pre, earlier.act.op ≠ .channel .dropReceiver) ∧
      received (channelHistory (pre ++ entry :: post)) = received (channelHistory pre) := by
  have consumer {front back : List (Entry (sig adapter.reports) (StreamTask request.polled.length))}
      {found : Entry (sig adapter.reports) (StreamTask request.polled.length)}
      (cut : pre ++ entry :: post = front ++ found :: back)
      (acts : found.act.op = .channel .dropReceiver ∨ found.act.op = .channel .receive) :
      found.task = .consumer ∧ ∀ act ∈ own .consumer front, act.op ≠ .channel .dropReceiver := by
    obtain ⟨task, op, ans⟩ := found
    rw [cut] at run
    have does := run.justified (pollMarketData_does task)
    cases task with
    | forwardLoop =>
      obtain ⟨inner, shown, forwards⟩ := does
      rcases acts with rfl | rfl <;> cases shown <;> exact forwards.elim
    | poll id => rcases acts with rfl | rfl <;> exact does.elim
    | consumer => exact ⟨rfl, does.1⟩
  obtain ⟨mine, keeps⟩ := consumer rfl (.inl leaves)
  constructor
  · intro earlier member drops
    obtain ⟨front, back, rfl⟩ := List.append_of_mem member
    obtain ⟨also, _⟩ := @consumer front (back ++ entry :: post) earlier (by simp) (.inl drops)
    obtain ⟨task, act⟩ := earlier
    obtain rfl := also
    exact keeps act (mem_own.mpr member) drops
  · have silent (later : Entry (sig adapter.reports) (StreamTask request.polled.length))
        (member : later ∈ entry :: post) : (channelAct later.act).bind receivedItem = none := by
      by_cases receives : later.act.op = .channel .receive
      · exfalso
        rcases List.mem_cons.mp member with rfl | after
        · rw [leaves] at receives
          cases receives
        · obtain ⟨front, back, rfl⟩ := List.append_of_mem after
          obtain ⟨-, unbroken⟩ := @consumer (pre ++ entry :: front) back later (by simp) (.inr receives)
          obtain ⟨task, act⟩ := entry
          obtain rfl := mine
          exact unbroken act (mem_own.mpr (by simp)) leaves
      · obtain ⟨task, op, ans⟩ := later
        cases op with
        | channel op =>
          cases op with
          | receive => exact absurd rfl receives
          | isClosed | push | notifyOne | send | loadSourceClosed | storeSourceClosed | take | notified
          | dropReceiver => rfl
        | tick | fetchAdd | fetchOrderBook | fetchTicker | leave => rfl
    rw [received_channelHistory, received_channelHistory, List.filterMap_append,
      List.filterMap_eq_nil_iff.mpr silent, List.append_nil]

theorem isSequenceGap_iff {prev next : UInt64} (later : prev < next) :
    isSequenceGap prev next = true ↔ ∃ number, prev < number ∧ number < next := by
  have bound := next.toNat_lt
  rw [UInt64.lt_iff_toNat_lt] at later
  have follows : (prev + 1).toNat = prev.toNat + 1 := by
    rw [UInt64.toNat_add]
    exact Nat.mod_eq_of_lt (by simp; omega)
  rw [isSequenceGap, decide_eq_true_iff]
  constructor
  · intro skips
    refine ⟨prev + 1, ?_, ?_⟩
    · rw [UInt64.lt_iff_toNat_lt, follows]
      omega
    · rw [UInt64.lt_iff_toNat_lt, follows]
      have different : next.toNat ≠ prev.toNat + 1 := by
        intro same
        exact skips (UInt64.toNat_inj.mp (same.trans follows.symm))
      omega
  · rintro ⟨number, above, under⟩ rfl
    rw [UInt64.lt_iff_toNat_lt] at above under
    omega

/-- What the consumer of an orderly stream finds in the numbers it receives. -/
structure InSequence (settings : Settings String MarketDataEvent) {reports : String → String → Bool}
    {n : Nat} (history : List (Entry (sig reports) (StreamTask n))) : Prop where
  increasing : (received (channelHistory history)).Pairwise
    fun earlier later => earlier.header.sequence < later.header.sequence
  gaps : ∀ front prev next back, received (channelHistory history) = front ++ prev :: next :: back →
    (isSequenceGap prev.header.sequence next.header.sequence = true ↔
      ∃ number, prev.header.sequence < number ∧ number < next.header.sequence ∧
        (Failed history number ∨ Dropped settings history number))

/-- A number between two that arrive one after the other has failed or was dropped. -/
theorem Numbered.lost {reports : String → String → Bool} {n : Nat}
    {settings : Settings String MarketDataEvent} {shared : Shared}
    {history : List (Entry (sig reports) (StreamTask n))} (numbered : Numbered settings history shared)
    (accounts : Accounts settings (channelHistory history) shared.pipe)
    {front back : List MarketDataEvent} {prev next : MarketDataEvent}
    (arrive : received (channelHistory history) = front ++ prev :: next :: back) {number : UInt64}
    (above : prev.header.sequence < number) (under : number < next.header.sequence) :
    Failed history number ∨ Dropped settings history number := by
  have whole : line (channelHistory history) shared.pipe = front ++ prev :: next ::
      (back ++ (inFlight (channelHistory history) shared.pipe ++ buffered shared.pipe)) := by
    rw [line, arrive]
    simp
  have sorted := numbered.sorted.sublist numbered.ordered
  rw [whole] at sorted
  obtain ⟨-, later, across⟩ := List.pairwise_append.mp sorted
  obtain ⟨-, after⟩ := List.pairwise_cons.mp later
  obtain ⟨beyond, -⟩ := List.pairwise_cons.mp after
  have nextSent := numbered.ordered.subset (by rw [whole]; simp : next ∈ line _ shared.pipe)
  have most := numbered.below next nextSent
  rw [UInt64.lt_iff_toNat_lt] at above under
  rcases numbered.accounted number (by omega) (by omega) with ⟨id, holds⟩ | failed | ⟨event, sent, same⟩
  · have early := (numbered.taken id number holds).2 next nextSent
    rw [UInt64.lt_iff_toNat_lt] at early
    omega
  · exact .inl failed
  · subst same
    have placed := accounts.items.mem_iff.mp sent
    rw [List.mem_append, List.mem_append] at placed
    rcases placed with (there | replacedBy) | gone
    · exfalso
      rw [whole] at there
      rcases List.mem_append.mp there with earlier | there
      · have before := across event earlier prev (by simp)
        rw [UInt64.lt_iff_toNat_lt] at before
        omega
      · rcases List.mem_cons.mp there with rfl | there
        · omega
        · rcases List.mem_cons.mp there with rfl | there
          · omega
          · have behind := beyond event there
            rw [UInt64.lt_iff_toNat_lt] at behind
            omega
    · exact .inr ⟨event, rfl, .inl replacedBy⟩
    · exact .inr ⟨event, rfl, .inr gone⟩

theorem Run.inSequence
    (run : Run (pollMarketData adapter request policy debugAssertions rounds reads drops) history config)
    (kept : ∀ entry ∈ history, entry.act.op ≠ .channel .dropReceiver)
    (orderly : OrderlyRun (streamSettings policy debugAssertions) history) :
    InSequence (streamSettings policy debugAssertions) history := by
  have numbered := Run.numbered run kept orderly
  have accounts := (Run.streams run kept).accounts
  have front := received_prefix (channelHistory history) config.state.pipe
  have increasing : (received (channelHistory history)).Pairwise
      fun earlier later => earlier.header.sequence < later.header.sequence :=
    numbered.sorted.sublist (front.sublist.trans numbered.ordered)
  refine ⟨increasing, fun front prev next back arrive => ?_⟩
  rw [arrive] at increasing
  have later : prev.header.sequence < next.header.sequence := by
    obtain ⟨-, sorted, -⟩ := List.pairwise_append.mp increasing
    exact (List.pairwise_cons.mp sorted).1 next (List.mem_cons_self ..)
  rw [isSequenceGap_iff later]
  constructor
  · rintro ⟨number, above, under⟩
    exact ⟨number, above, under, numbered.lost accounts arrive above under⟩
  · rintro ⟨number, above, under, _⟩
    exact ⟨number, above, under⟩

/-- In a run whose every step is orderly the numbers arrive in order, and a gap is reported exactly
where an event in between was dropped or failed. -/
theorem market_sequence_ordered
    (run : Run (pollMarketData adapter request policy debugAssertions rounds reads drops) history config)
    (orderly : OrderlyRun (streamSettings policy debugAssertions) history) :
    InSequence (streamSettings policy debugAssertions) history := by
  by_cases kept : ∀ entry ∈ history, entry.act.op ≠ .channel .dropReceiver
  · exact Run.inSequence run kept orderly
  · push Not at kept
    obtain ⟨entry, member, leaves⟩ := kept
    obtain ⟨pre, post, rfl⟩ := List.append_of_mem member
    obtain ⟨earlier, arrives⟩ := Run.dropped_once run leaves
    obtain ⟨middle, before, _⟩ := Interleave.Run.split run
    obtain ⟨increasing, gaps⟩ := Run.inSequence before earlier orderly.front
    constructor
    · rwa [arrives]
    · intro front prev next back arrive
      rw [arrives] at arrive
      constructor
      · intro skips
        obtain ⟨number, above, under, lost⟩ := (gaps front prev next back arrive).mp skips
        exact ⟨number, above, under, lost.imp (·.append _) (·.append _)⟩
      · rintro ⟨number, above, under, _⟩
        rw [arrive] at increasing
        obtain ⟨-, sorted, -⟩ := List.pairwise_append.mp increasing
        have later := (List.pairwise_cons.mp sorted).1 next (List.mem_cons_self ..)
        exact (isSequenceGap_iff later).mpr ⟨number, above, under⟩

end Runs

/-- The tickers of two symbols, from a remote backend. -/
def tickers : StreamMarketDataRequest :=
  ⟨some ⟨"remote", ""⟩, [⟨.known .ticker, "BTC/USDT"⟩, ⟨.known .ticker, "ETH/USDT"⟩]⟩

/-- A backend that reports every symbol under its own name. -/
abbrev sameNames : Adapter := .remote fun asked named => asked == named

/-- A fetch between two that answer fails. -/
theorem market_sequence_ordered_tickers : ∃ history config,
    Run (pollMarketData sameNames tickers (policyOf tickers) true 2 2 false) history config ∧
      ((received (channelHistory history)).map (·.header.sequence)) = [1, 3] ∧
      InSequence (streamSettings (policyOf tickers) true) history := by
  obtain ⟨history, config, run, orderly, arrive⟩ :
      ∃ history config,
        Run (pollMarketData sameNames tickers (policyOf tickers) true 2 2 false) history config ∧
          OrderlyRun (streamSettings (policyOf tickers) true) history ∧
          ((received (channelHistory history)).map (·.header.sequence)) = [1, 3] :=
    Run.exists_of_replay (List.flatten
      [List.replicate 8 (.poll ⟨0, by decide⟩, fun symbol => .ok ⟨symbol, beq_self_eq_true symbol⟩),
        List.replicate 5 (.poll ⟨1, by decide⟩, fun _ => .error (.transport "")),
        List.replicate 8 (.poll ⟨1, by decide⟩, fun symbol => .ok ⟨symbol, beq_self_eq_true symbol⟩),
        List.replicate 4 (.forwardLoop, fun _ => .error (.transport "")),
        List.replicate 2 (.consumer, fun _ => .error (.transport ""))]) (by decide +kernel)
  exact ⟨history, config, run, arrive, market_sequence_ordered run orderly⟩

/-- The task that took the first number sends after the one that took the second. -/
theorem market_sequence_goes_back : ∃ history config,
    Run (pollMarketData sameNames tickers (policyOf tickers) true 1 2 false) history config ∧
      ((received (channelHistory history)).map (·.header.sequence)) = [2, 1] ∧
      ¬ InSequence (streamSettings (policyOf tickers) true) history := by
  obtain ⟨history, config, run, arrive⟩ :
      ∃ history config,
        Run (pollMarketData sameNames tickers (policyOf tickers) true 1 2 false) history config ∧
          ((received (channelHistory history)).map (·.header.sequence)) = [2, 1] :=
    Run.exists_of_replay (List.flatten
      [List.replicate 4 (.poll ⟨0, by decide⟩, fun symbol => .ok ⟨symbol, beq_self_eq_true symbol⟩),
        List.replicate 8 (.poll ⟨1, by decide⟩, fun symbol => .ok ⟨symbol, beq_self_eq_true symbol⟩),
        List.replicate 4 (.poll ⟨0, by decide⟩, fun symbol => .ok ⟨symbol, beq_self_eq_true symbol⟩),
        List.replicate 4 (.forwardLoop, fun _ => .error (.transport "")),
        List.replicate 2 (.consumer, fun _ => .error (.transport ""))]) (by decide +kernel)
  refine ⟨history, config, run, arrive, fun ordered => ?_⟩
  have increasing := List.pairwise_map.mpr ordered.increasing
  rw [arrive] at increasing
  exact absurd increasing (by decide)

end LongTrader.Market
