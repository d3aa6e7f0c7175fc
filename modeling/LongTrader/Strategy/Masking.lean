import LongTrader.Strategy.Flipping

/-! Whether every fill is flipped. A level counts as alive as long as any order rests at its price, so
that the order of one level can hide that the order of another has left. -/

namespace LongTrader.Strategy.SimpleGrid

variable {P : Type} [LinearOrder P] [Zero P] [Add P] [Sub P] [Div P] [NatCast P]

/-- The venue accepts every placement. -/
def Event.Accepting : Event P → Prop
  | .rebalances poll => ∀ count, ∃ orderId, poll.creates count = .accepted orderId
  | .leaves _ | .restarts _ => True

/-- The order that a level carries is not among the open orders, and the price one step away on the
other side is in the band. -/
def World.Due (world : World P) (poll : Poll P) (level : GridLevel P) : Prop :=
  (∀ order ∈ poll.shown, order.clientOrderId ≠ level.clientOrderId) ∧
    world.config.inBand (flip world.config "" level).price = true

/-- In place of a level stands the opposite leg one step away, which rests on the venue. -/
def World.Replaced (before after : World P) (index : Nat) (level : GridLevel P) : Prop :=
  ∃ leg, after.levels[index]? = some leg ∧ leg ∈ after.book ∧
    leg.price = (flip before.config "" level).price ∧ leg.side = (flip before.config "" level).side

/-- A cycle that reconciles the ladder replaces every level that is due. -/
def World.FlipsDue (world : World P) : Event P → Prop
  | .rebalances poll => world.reconciles poll = true → ∀ index level, world.levels[index]? = some level →
      world.Due poll level → world.Replaced (world.rebalance poll) index level
  | .leaves _ | .restarts _ => True

/-- When the ladder is reconciled, no open order is at the price of a level that is due. -/
def World.Unmasked (world : World P) : Event P → Prop
  | .rebalances poll => world.reconciles poll = true → ∀ level ∈ world.levels, world.Due poll level →
      ∀ order ∈ poll.shown, order.livePrice ≠ some level.price
  | .leaves _ | .restarts _ => True

instance (world : World P) (poll : Poll P) (level : GridLevel P) : Decidable (world.Due poll level) :=
  inferInstanceAs (Decidable (_ ∧ _))

instance (world : World P) : (event : Event P) → Decidable (world.Unmasked event)
  | .rebalances poll => inferInstanceAs (Decidable (world.reconciles poll = true →
      ∀ level ∈ world.levels, world.Due poll level → ∀ order ∈ poll.shown, order.livePrice ≠ some level.price))
  | .leaves _ | .restarts _ => isTrue trivial

section Flips

variable {config : SimpleGridConfig P} {poll : Poll P} {alive : GridLevel P → Bool}

/-- Of a cycle with every placement accepted, a level that is not gone stays in its place, and in the
place of one that is gone stands an accepted order for its other side. -/
theorem flipLevels_getElem? (accepts : ∀ count, ∃ orderId, poll.creates count = .accepted orderId)
    {count index : Nat} {levels : List (GridLevel P)} {level : GridLevel P}
    (here : levels[index]? = some level) :
    if isGone config alive level then
      ∃ leg ∈ (flipLevels config poll alive count levels).accepted,
        (flipLevels config poll alive count levels).levels[index]? = some leg ∧
        leg.price = (flip config "" level).price ∧ leg.side = (flip config "" level).side
    else (flipLevels config poll alive count levels).levels[index]? = some level := by
  induction levels generalizing count index with
  | nil => cases here
  | cons first rest ih =>
    obtain ⟨orderId, accepted⟩ := accepts count
    rw [flipLevels_eq]
    cases index with
    | zero =>
      obtain rfl := Option.some.inj here
      cases gone : isGone config alive first with
      | false => rfl
      | true =>
        rw [if_pos rfl, if_pos rfl, accepted]
        exact ⟨_, List.mem_cons_self .., rfl, rfl, rfl⟩
    | succ index =>
      cases isGone config alive first with
      | false => exact @ih count index here
      | true =>
        have later := @ih (count + 1) index here
        rw [if_pos rfl, accepted]
        split at later
        · rename_i gone
          obtain ⟨leg, among, stands, same⟩ := later
          rw [if_pos gone]
          exact ⟨leg, List.mem_cons_of_mem _ among, stands, same⟩
        · rename_i stays
          rw [if_neg stays]
          exact later

theorem flipLevels_accepting (accepts : ∀ count, ∃ orderId, poll.creates count = .accepted orderId)
    (count : Nat) (levels : List (GridLevel P)) :
    (flipLevels config poll alive count levels).errors = 0 := by
  rw [flipLevels_errors, failures, List.countP_eq_zero]
  intro n _
  obtain ⟨orderId, accepted⟩ := accepts n
  simp [accepted, CreateAnswer.isOk]

end Flips

section Worlds

variable {world : World P} {poll : Poll P}

/-- A level that is due is alive only by its price. -/
theorem World.Due.isGone_iff {level : GridLevel P} (due : world.Due poll level) :
    isGone world.config (isAlive poll.shown) level = true ↔
      ∀ order ∈ poll.shown, order.livePrice ≠ some level.price := by
  obtain ⟨left, inside⟩ := due
  simpa [isGone, isAlive, inside] using fun _ => left

theorem World.rebalance_flips
    (accepts : ∀ count, ∃ orderId, poll.creates count = .accepted orderId)
    (reconciles : world.reconciles poll = true) :
    let placements := flipLevels world.config poll (isAlive poll.shown) 0 world.levels
    (world.rebalance poll).levels = placements.levels ∧
      (world.rebalance poll).book = world.book ++ placements.accepted := by
  intro placements
  rcases world.cycle_cases poll with
    fails | ⟨current, -, ⟨-, -, resumes⟩ | ⟨-, -, seeds⟩ | ⟨-, flips⟩⟩
  · simp [World.reconciles, fails] at reconciles
  · simp [World.reconciles, resumes] at reconciles
  · simp [World.reconciles, seeds] at reconciles
  · have quiet : ¬ maxConsecutiveErrors ≤ placements.errors := by
      rw [flipLevels_accepting accepts]
      decide
    rw [World.rebalance, flips]
    simp only [World.update]
    rw [if_neg quiet]
    exact ⟨rfl, rfl⟩

theorem World.flipsDue_iff {event : Event P} (accepting : event.Accepting) :
    world.FlipsDue event ↔ world.Unmasked event := by
  cases event with
  | leaves index => exact Iff.rfl
  | restarts config => exact Iff.rfl
  | rebalances poll =>
    have accepts : ∀ count, ∃ orderId, poll.creates count = .accepted orderId := accepting
    refine forall_congr' fun reconciles => ?_
    obtain ⟨ladder, book⟩ := World.rebalance_flips accepts reconciles
    constructor
    · intro flips level member due
      obtain ⟨index, here⟩ := List.mem_iff_getElem?.mp member
      obtain ⟨leg, stands, -, -, side⟩ := flips index level here due
      rw [← due.isGone_iff]
      by_contra stays
      have kept := @flipLevels_getElem? P _ _ _ _ _ _ world.config poll (isAlive poll.shown)
        accepts 0 index _ _ here
      rw [if_neg stays, ← ladder, stands] at kept
      rw [Option.some.inj kept] at side
      exact flip_side world.config "" level side.symm
    · intro unmasked index level here due
      have gone := due.isGone_iff.mpr (unmasked level (List.mem_of_getElem? here) due)
      have placed := @flipLevels_getElem? P _ _ _ _ _ _ world.config poll (isAlive poll.shown)
        accepts 0 index _ _ here
      rw [if_pos gone] at placed
      obtain ⟨leg, among, stands, same⟩ := placed
      refine ⟨leg, by rw [ladder, stands], ?_, same⟩
      rw [book]
      exact List.mem_append_right _ among

end Worlds

/-- In a run against a venue that accepts every placement, whatever it shows of the open orders, every
cycle flips every level whose order has left them, if and only if no open order is ever at the price of
such a level. -/
theorem every_fill_flipped_iff (config : SimpleGridConfig P) (events : List (Event P))
    (accepting : ∀ event ∈ events, event.Accepting) :
    Runs.Along World.step World.FlipsDue (.start config) events ↔
      Runs.Along World.step World.Unmasked (.start config) events :=
  Runs.along_congr_of_mem (fun _ event member (_ : True) => World.flipsDue_iff (accepting event member))
    (fun _ _ _ _ _ => trivial) trivial

/-- A cycle of a venue that accepts whatever is submitted. -/
def acceptingPoll (base : Nat) (shown : List (Nat × Int)) : Poll Int :=
  { pollFrom base 0 true shown with creates := fun n => .accepted (toString (base + n)) }

theorem acceptingPoll_accepting (base : Nat) (shown : List (Nat × Int)) :
    (Event.rebalances (acceptingPoll base shown)).Accepting :=
  fun _ => ⟨_, rfl⟩

/-- The order at 95 is filled, and flipped in the next cycle. -/
theorem every_fill_flipped_once :
    Runs.Along World.step World.FlipsDue (.start grid)
      [.rebalances (acceptingPoll 0 []), .leaves 1,
        .rebalances (acceptingPoll 10 (seededOrders.eraseIdx 1))] := by
  refine (every_fill_flipped_iff grid _ ?_).mpr (by decide +kernel)
  intro event member
  simp only [List.mem_cons, List.not_mem_nil, or_false] at member
  rcases member with rfl | rfl | rfl
  · exact acceptingPoll_accepting 0 _
  · trivial
  · exact acceptingPoll_accepting 10 _

/-- A ladder in which a level is flipped onto another one, and then the other is filled. -/
def masked : List (Event Int) :=
  [.rebalances (acceptingPoll 0 []), .leaves 1, .rebalances (acceptingPoll 10 (seededOrders.eraseIdx 1)),
    .leaves 1, .rebalances (acceptingPoll 20 [(0, 90), (3, 105), (4, 110), (10, 100)])]

/-- The order at 95 is filled and flipped to a sell at 100, where one rests already. When the older of
the two is filled, the other hides it. -/
theorem fill_masked :
    (∀ event ∈ masked, Event.Accepting event) ∧
    ¬ Runs.Along World.step World.FlipsDue (.start grid) masked := by
  constructor
  · intro event member
    simp only [masked, List.mem_cons, List.not_mem_nil, or_false] at member
    rcases member with rfl | rfl | rfl | rfl | rfl
    · exact acceptingPoll_accepting 0 _
    · trivial
    · exact acceptingPoll_accepting 10 _
    · trivial
    · exact acceptingPoll_accepting 20 _
  · rintro ⟨-, -, -, -, flips, -⟩
    obtain ⟨leg, stands, -, -, side⟩ := flips (by decide +kernel) 2
      ⟨100, .sell, "grid-2", "2"⟩ (by decide +kernel) (by decide +kernel)
    have kept : ∀ leg, ((World.start grid).run masked).levels[2]? = some leg → leg.side = .sell := by
      decide +kernel
    rw [kept leg stands] at side
    cases side

end LongTrader.Strategy.SimpleGrid
