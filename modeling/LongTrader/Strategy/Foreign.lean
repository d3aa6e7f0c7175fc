import LongTrader.Strategy.Hedging

/-! The hedged grid on a book that it shares with other parties. The book is read by price alone, so
that the grid may take the order of another party for its own. -/

namespace LongTrader.Strategy.HedgeGrid

/-- An order that rests on the primary venue, and whether the grid has placed it. -/
structure Resting (P : Type) where
  order : Request P
  isOwn : Bool

/-- The strategy on a shared book: the ladder that is believed, the orders that rest, the grid's
orders that have left, and the levels for which a hedge has been submitted. -/
structure Market (P : Type) where
  believed : List (P × Bool)
  book : List (Resting P)
  departed : List (Request P)
  submitted : List (P × Bool)

section Submissions

variable {P : Type}

/-- The levels for which the hedging loop submits an order, down to the one whose failure ends it. -/
def submittedLevels : (Nat → CreateAnswer) → List (P × Bool) → List (P × Bool)
  | _, [] => []
  | answers, level :: rest => match answers 0 with
    | .refused _ | .lost _ => [level]
    | .accepted _ => level :: submittedLevels (fun n => answers (n + 1)) rest

variable {answers : Nat → CreateAnswer}

theorem submittedLevels_sublist (levels : List (P × Bool)) :
    (submittedLevels answers levels).Sublist levels := by
  induction levels generalizing answers with
  | nil => exact List.Sublist.refl _
  | cons level rest ih =>
    rw [submittedLevels]
    cases answers 0 with
    | refused error | lost error => exact List.cons_sublist_cons.mpr (List.nil_sublist rest)
    | accepted orderId => exact List.cons_sublist_cons.mpr ih

/-- When none fails, the venue accepts the hedges that are submitted. -/
theorem hedgeLevels_submitted (config : HedgeGridConfig P) {levels : List (P × Bool)}
    (all : (hedgeLevels config answers levels).2 = none) :
    (hedgeLevels config answers levels).1 = (submittedLevels answers levels).map (hedgeLeg config) := by
  induction levels generalizing answers with
  | nil => rfl
  | cons level rest ih =>
    rw [hedgeLevels] at all ⊢
    rw [submittedLevels]
    cases answer : answers 0 with
    | refused error | lost error => simp [answer] at all
    | accepted orderId =>
      simp only [answer] at all
      rw [List.map_cons, ← ih all]
      rfl

theorem hedgeLevels_accepted (config : HedgeGridConfig P) {levels : List (P × Bool)}
    (all : (hedgeLevels config answers levels).2 = none) : ∀ i < levels.length, (answers i).isOk := by
  induction levels generalizing answers with
  | nil => exact fun i inside => absurd inside (Nat.not_lt_zero i)
  | cons level rest ih =>
    rw [hedgeLevels] at all
    cases answer : answers 0 with
    | refused error | lost error => simp [answer] at all
    | accepted orderId =>
      intro i inside
      cases i with
      | zero => rw [answer, CreateAnswer.isOk]
      | succ i =>
        simp only [answer] at all
        exact ih all i (Nat.lt_of_succ_lt_succ inside)

variable [LinearOrder P] [Add P] [Sub P] [Div P] [NatCast P]

theorem seedLevels_accepted (config : HedgeGridConfig P) {mid : P} {live : P → Option Bool} {fuel : Nat}
    {price : P} {believed ladder : List (P × Bool)} {placed : List (Request P)}
    (seeded : seedLevels config mid live fuel answers price believed = some (.ok ladder, placed)) :
    ∀ i < placed.length, (answers i).isOk := by
  induction fuel generalizing answers price believed placed with
  | zero => cases seeded
  | succ fuel ih =>
    rw [seedLevels] at seeded
    split at seeded
    · split at seeded
      · exact ih seeded
      · dsimp only at seeded
        split at seeded
        · cases seeded
        · cases seeded
        · rename_i orderId answer
          obtain ⟨⟨result, tail⟩, later, same⟩ := Option.map_eq_some_iff.mp seeded
          cases same
          intro i inside
          cases i with
          | zero => rw [answer, CreateAnswer.isOk]
          | succ i => exact ih later i (Nat.lt_of_succ_lt_succ inside)
    · cases seeded
      exact fun i inside => absurd inside (Nat.not_lt_zero i)

end Submissions

section Books

variable {P : Type}

/-- Whether an order rests at a price, whoever has placed it. -/
def Rests (book : List (Request P)) (price : P) : Prop := ∃ order ∈ book, order.price = some price

variable [LinearOrder P]

theorem live_isNone_iff (book : List (Request P)) (price : P) :
    (live book price).isNone ↔ ¬ Rests book price := by
  induction book using List.reverseRecOn with
  | nil => simp [live, Rests]
  | append_singleton rest order ih =>
    have last : live (rest ++ [order]) = order.price.elim (live rest) fun other =>
        Function.update (live rest) other (some (decide (order.side = OrderSide.buy))) := by
      rw [live, List.foldl_append, List.foldl_cons, List.foldl_nil, ← live]
      cases order.price <;> rfl
    have either : Rests (rest ++ [order]) price ↔ Rests rest price ∨ order.price = some price := by
      simp [Rests, or_and_right, exists_or]
    rw [last, either, not_or, ← ih]
    cases at_price : order.price with
    | none => simp
    | some other =>
      by_cases same : price = other
      · simp [same]
      · simp [same, Ne.symm same]

theorem mem_missing {book : List (Request P)} {level : P × Bool} :
    level ∈ missing book levels ↔ level ∈ levels ∧ ¬ Rests book level.1 := by
  rw [missing, List.mem_filter, live_isNone_iff]

end Books

section Ticks

variable {P : Type} [LinearOrder P] [Zero P] [Add P] [Sub P] [Div P] [NatCast P]
  (config : HedgeGridConfig P)

/-- The levels for which a cycle submits a hedge, whether or not it comes to its end. -/
def submits (poll : Poll P) (book : List (Request P)) (levels : List (P × Bool)) : List (P × Bool) :=
  match poll.mid, poll.openOrders with
  | .ok mid, none =>
    if mid ≤ 0 ∨ config.numLevels = 0 ∨ config.step ≤ 0 then []
    else submittedLevels poll.hedges (missing book levels)
  | _, _ => []

/-- What a cycle must find to seed its ladder to the end. -/
structure Seeds (poll : Poll P) (book : List (Request P)) (levels : List (P × Bool)) (n : Nat) : Prop extends
    poll.Hedges config where
  ladder : Ladder config n
  hedged : ∀ i < (missing book levels).length, (poll.hedges i).isOk
  legs : ∀ i < ((rungs config n).filter fun price => (live book price).isNone).length, (poll.legs i).isOk

variable {config} {fuel : Nat} {poll : Poll P} {book : List (Request P)} {levels : List (P × Bool)}
  {cycle : Cycle P}

omit [Add P] in
theorem submits_sublist : (submits config poll book levels).Sublist (missing book levels) := by
  unfold submits
  split
  · split
    · exact List.nil_sublist _
    · exact submittedLevels_sublist _
  · exact List.nil_sublist _

/-- What the hedge venue accepts in a cycle is what is submitted in it, when no hedge fails. -/
theorem tick_submits (ran : tick config fuel poll book levels = some cycle)
    (unfailed : ∀ error, cycle.outcome ≠ .hedgeFailed error) :
    cycle.hedged = (submits config poll book levels).map (hedgeLeg config) := by
  rw [tick] at ran
  unfold submits
  split at ran
  · rename_i error unread
    cases ran
    simp [unread]
  rename_i mid read
  split at ran
  · rename_i nonpositive
    cases ran
    cases poll.openOrders <;> simp [read, nonpositive]
  split at ran
  · rename_i none_asked
    cases ran
    cases poll.openOrders <;> simp [read, none_asked]
  split at ran
  · rename_i flat
    cases ran
    cases poll.openOrders <;> simp [read, flat]
  rename_i positive some_asked steep
  split at ran
  · rename_i error unread
    cases ran
    simp [read, unread]
  rename_i opened
  rw [read, opened]
  dsimp only at ran ⊢
  rw [if_neg (by tauto)]
  split at ran
  · cases ran
    exact absurd rfl (unfailed _)
  · rename_i all
    have accepted := hedgeLevels_submitted config all
    split at ran
    · cases ran
    all_goals
      cases ran
      exact accepted

theorem tick_seeds (ran : tick config fuel poll book levels = some cycle)
    (seeded : cycle.outcome = .seeded) : ∃ n, Seeds config poll book levels n ∧
      cycle.believed.map Prod.fst = rungs config n ∧
      cycle.placed.map Request.price =
        ((rungs config n).filter fun price => (live book price).isNone).map some := by
  rw [tick] at ran
  split at ran
  · cases ran
    cases seeded
  rename_i mid read
  split at ran
  · cases ran
    cases seeded
  rename_i positive
  split at ran
  · cases ran
    cases seeded
  rename_i some_asked
  split at ran
  · cases ran
    cases seeded
  rename_i steep
  split at ran
  · cases ran
    cases seeded
  rename_i opened
  dsimp only at ran
  split at ran
  · cases ran
    cases seeded
  rename_i all
  split at ran
  · cases ran
  · cases ran
    cases seeded
  rename_i believed placed ends
  cases ran
  have legs := seedLevels_accepted config ends
  obtain ⟨n, inside, rfl, whole⟩ := seedLevels_spec config mid (live book) ends
  obtain ⟨beyond, rfl⟩ := whole believed rfl
  have ladder : Ladder config n := ⟨inside, beyond⟩
  refine ⟨n, ⟨⟨⟨some_asked, not_le.mp steep⟩, ⟨mid, read, not_le.mp positive⟩, opened⟩, ladder,
    hedgeLevels_accepted config all, ?_⟩, ?_, ?_⟩
  · simpa [placedOn, rungs] using legs
  · rw [insert_levels _ _ [] ladder.nodup]
    simp [Function.comp_def]
    rfl
  · simp [placedOn, legOf, limitOrder, orderRequest, Function.comp_def]
    rfl

end Ticks

section Markets

variable {P : Type} [LinearOrder P] [Zero P] [Add P] [Sub P] [Div P] [NatCast P]

/-- What the venue reports. -/
def orders (book : List (Resting P)) : List (Request P) := book.map Resting.order

namespace Market

/-- A new strategy. -/
def new : Market P := ⟨[], [], [], []⟩

/-- Another party places an order. -/
def joined (market : Market P) (order : Request P) : Market P :=
  { market with book := market.book ++ [⟨order, false⟩] }

/-- An order is filled, or it is taken off the book. -/
def without (market : Market P) (front : List (Resting P)) (resting : Resting P) (back : List (Resting P)) :
    Market P :=
  { market with
    book := front ++ back
    departed := if resting.isOwn then market.departed ++ [resting.order] else market.departed }

def after (config : HedgeGridConfig P) (poll : Poll P) (reports : List (Resting P)) (levels : List (P × Bool))
    (market : Market P) (cycle : Cycle P) : Market P where
  believed := cycle.believed
  book := market.book ++ cycle.placed.map fun order => ⟨order, true⟩
  departed := market.departed
  submitted := market.submitted ++ submits config poll (orders reports) levels

/-- The grid's orders at a price that have left the book. -/
def left (market : Market P) (price : P) : Nat :=
  market.departed.countP fun order => order.price = some price

/-- The orders that the grid has had accepted at a price. -/
def placed (market : Market P) (price : P) : Nat :=
  market.book.countP (fun resting => resting.isOwn ∧ resting.order.price = some price) + market.left price

/-- The hedges that the grid has submitted for a price. -/
def hedged (market : Market P) (price : P) : Nat :=
  market.submitted.countP fun level => level.1 = price

end Market

/-- The markets that a run reaches in which the grid owns every price at which its seeding finds an
order, in the sense that is given. -/
inductive Shared (config : HedgeGridConfig P) (owns : Market P → P → Prop) : Market P → Prop where
  | new : Shared config owns .new
  | arrives {market : Market P} {order : Request P} :
      Shared config owns market → Shared config owns (market.joined order)
  | departs {market : Market P} {front back : List (Resting P)} {resting : Resting P} :
      Shared config owns market → market.book = front ++ resting :: back →
      Shared config owns (market.without front resting back)
  | polls {market : Market P} {fuel : Nat} {poll : Poll P} {reports : List (Resting P)}
      {levels : List (P × Bool)} {cycle : Cycle P} :
      Shared config owns market → reports.Perm market.book → levels.Perm market.believed →
      tick config fuel poll (orders reports) levels = some cycle →
      (∀ n, Seeds config poll (orders reports) levels n → ∀ price ∈ rungs config n,
        Rests (orders reports) price → owns market price) →
      Shared config owns (market.after config poll reports levels cycle)

section Ownership

variable {config : HedgeGridConfig P} {fuel : Nat} {poll : Poll P} {market : Market P}
  {reports : List (Resting P)} {levels : List (P × Bool)} {cycle : Cycle P}

omit [Zero P] [Add P] [Sub P] [Div P] [NatCast P] in
/-- Where nothing rests, all that the grid has had accepted has left. -/
theorem Market.placed_eq_left (reported : reports.Perm market.book) {price : P}
    (absent : ¬ Rests (orders reports) price) : market.placed price = market.left price := by
  have none_rests : market.book.countP (fun resting => resting.isOwn ∧ resting.order.price = some price) = 0 := by
    rw [List.countP_eq_zero]
    intro resting member rests
    have own := of_decide_eq_true rests
    exact absent ⟨resting.order, List.mem_map_of_mem (reported.mem_iff.mpr member), own.2⟩
  rw [Market.placed, none_rests, Nat.zero_add]

omit [Add P] in
theorem Market.placed_after (price : P) :
    (market.after config poll reports levels cycle).placed price =
      market.placed price + (cycle.placed.map Request.price).count (some price) := by
  have accepted : (cycle.placed.map fun order => (⟨order, true⟩ : Resting P)).countP
      (fun resting => resting.isOwn ∧ resting.order.price = some price) =
        (cycle.placed.map Request.price).count (some price) := by
    rw [List.countP_map, List.count, List.countP_map]
    exact List.countP_congr fun order _ => by simp
  simp only [Market.placed, Market.after, Market.left, List.countP_append, accepted]
  omega

/-- What a cycle believes in afterwards it has believed before and has not hedged, or it is on the
ladder, where it has found an order or has placed its own. -/
theorem Market.believed_cases (market : Market P)
    (ran : tick config fuel poll (orders reports) levels = some cycle) {level : P × Bool}
    (member : level ∈ cycle.believed) :
    (cycle.believed = levels ∧ submits config poll (orders reports) levels = []) ∨
      (∃ n, Seeds config poll (orders reports) levels n ∧ level.1 ∈ rungs config n) ∧
        (Rests (orders reports) level.1 ∨
          market.placed level.1 < (market.after config poll reports levels cycle).placed level.1) := by
  cases tick_cases config ran with
  | quiet believed hedged placed unhedged =>
    have submitted := tick_submits ran unhedged
    rw [hedged, eq_comm, List.map_eq_nil_iff] at submitted
    exact .inl ⟨believed, submitted⟩
  | hedgeFailed hedges done rest found covers error outcome believed =>
    rw [believed] at member
    cases member
  | legFailed hedges covers mid n error inside outcome believed =>
    rw [believed] at member
    cases member
  | seeded hedges covers mid m own outcome =>
    obtain ⟨n, seeds, ladder, legs⟩ := tick_seeds ran outcome
    have rung : level.1 ∈ rungs config n := ladder ▸ List.mem_map_of_mem member
    refine .inr ⟨⟨n, seeds, rung⟩, or_iff_not_imp_left.mpr fun absent => ?_⟩
    rw [placed_after, legs, Nat.lt_add_right_iff_pos, List.count_pos_iff]
    exact List.mem_map_of_mem (List.mem_filter.mpr ⟨rung, (live_isNone_iff _ _).mpr absent⟩)

omit [Zero P] [Add P] [Sub P] [Div P] [NatCast P] in
theorem Market.placed_joined (market : Market P) (order : Request P) (price : P) :
    (market.joined order).placed price = market.placed price := by
  simp [joined, placed, left]

omit [Zero P] [Add P] [Sub P] [Div P] [NatCast P] in
theorem Market.left_without (market : Market P) (front back : List (Resting P)) (resting : Resting P)
    (price : P) : (market.without front resting back).left price = market.left price +
      if resting.isOwn ∧ resting.order.price = some price then 1 else 0 := by
  cases own : resting.isOwn <;> simp [without, left, own, List.countP_append, List.countP_singleton]

omit [Zero P] [Add P] [Sub P] [Div P] [NatCast P] in
theorem Market.placed_without {front back : List (Resting P)} {resting : Resting P}
    (rests : market.book = front ++ resting :: back) (price : P) :
    (market.without front resting back).placed price = market.placed price := by
  rw [placed, left_without, placed, rests]
  simp only [without, List.countP_append, List.countP_cons, decide_eq_true_eq]
  omega

omit [Add P] in
theorem Market.hedged_after (price : P) :
    (market.after config poll reports levels cycle).hedged price = market.hedged price +
      (submits config poll (orders reports) levels).countP (fun level => level.1 = price) := by
  rw [hedged, after, List.countP_append, hedged]

omit [Add P] in
/-- A hedge is submitted for a level that is believed, and nothing of the grid rests there. -/
theorem Market.mem_submits (reported : reports.Perm market.book) (iterated : levels.Perm market.believed)
    {level : P × Bool} (member : level ∈ submits config poll (orders reports) levels) :
    level ∈ market.believed ∧ ¬ Rests (orders reports) level.1 ∧
      market.placed level.1 = market.left level.1 := by
  obtain ⟨believed, absent⟩ := mem_missing.mp (submits_sublist.subset member)
  exact ⟨iterated.mem_iff.mp believed, absent, placed_eq_left reported absent⟩

/-- At each level that is believed the grid has had an order accepted. -/
theorem Shared.placed (shared : Shared config (fun market price => 0 < market.placed price) market) :
    ∀ level ∈ market.believed, 0 < market.placed level.1 := by
  induction shared with
  | new => exact fun level member => absurd member List.not_mem_nil
  | arrives before ih =>
    intro level member
    rw [Market.placed_joined]
    exact ih level member
  | departs before rests ih =>
    intro level member
    rw [Market.placed_without rests]
    exact ih level member
  | polls before reported iterated ran owned ih =>
    intro level member
    rcases Market.believed_cases _ ran member with ⟨same, -⟩ | ⟨⟨n, seeds, rung⟩, found | fresh⟩
    · rw [Market.placed_after]
      exact Nat.add_pos_left (ih level (iterated.mem_iff.mp (same ▸ member))) _
    · rw [Market.placed_after]
      exact Nat.add_pos_left (owned n seeds level.1 rung found) _
    · exact Nat.zero_lt_of_lt fresh

/-- The account of the hedges: at each price no more are submitted than orders of the grid have left,
and at each level that is believed one more can be. -/
structure Market.Covered (market : Market P) : Prop where
  distinct : (market.believed.map Prod.fst).Nodup
  covered : ∀ price, market.hedged price ≤ market.left price
  backed : ∀ level ∈ market.believed, market.hedged level.1 < market.placed level.1

omit [Add P] in
theorem Market.Covered.submits (covered : market.Covered) (reported : reports.Perm market.book)
    (iterated : levels.Perm market.believed) (price : P) :
    market.hedged price +
      (submits config poll (orders reports) levels).countP (fun level => level.1 = price) ≤
        market.left price := by
  by_cases hedges : ∃ level ∈ HedgeGrid.submits config poll (orders reports) levels, level.1 = price
  · obtain ⟨level, member, rfl⟩ := hedges
    obtain ⟨believed, -, gone⟩ := mem_submits reported iterated member
    have once : (HedgeGrid.submits config poll (orders reports) levels).countP
        (fun other => other.1 = level.1) ≤ 1 := by
      have part : (HedgeGrid.submits config poll (orders reports) levels).Sublist levels :=
        submits_sublist.trans List.filter_sublist
      have distinct := (iterated.map Prod.fst).nodup_iff.mpr covered.distinct
      have few := List.nodup_iff_count_le_one.mp (distinct.sublist (part.map Prod.fst)) level.1
      rw [List.count, List.countP_map] at few
      exact few
    have backed := covered.backed level believed
    omega
  · have none_hedged : (HedgeGrid.submits config poll (orders reports) levels).countP
        (fun level => level.1 = price) = 0 := by
      rw [List.countP_eq_zero]
      exact fun level member same => hedges ⟨level, member, of_decide_eq_true same⟩
    rw [none_hedged, Nat.add_zero]
    exact covered.covered price

theorem Shared.covered
    (shared : Shared config (fun market price => market.hedged price < market.placed price) market) :
    market.Covered := by
  induction shared with
  | new => exact ⟨List.nodup_nil, fun _ => Nat.le_refl _, fun level member => absurd member List.not_mem_nil⟩
  | arrives before ih =>
    refine ⟨ih.distinct, ih.covered, fun level member => ?_⟩
    rw [Market.placed_joined]
    exact ih.backed level member
  | departs before rests ih =>
    refine ⟨ih.distinct, fun price => ?_, fun level member => ?_⟩
    · rw [Market.left_without]
      exact Nat.le_add_right_of_le (ih.covered price)
    · rw [Market.placed_without rests]
      exact ih.backed level member
  | @polls market fuel poll reports levels cycle before reported iterated ran owned ih =>
    refine ⟨?_, fun price => ?_, fun level member => ?_⟩
    · cases tick_cases config ran with
      | quiet believed => exact believed ▸ (iterated.map Prod.fst).nodup_iff.mpr ih.distinct
      | hedgeFailed hedges done rest found covers error outcome believed => simp [Market.after, believed]
      | legFailed hedges covers mid n error inside outcome believed => simp [Market.after, believed]
      | seeded hedges covers mid n ladder outcome believed =>
        simpa [Market.after, believed, Function.comp_def] using ladder.nodup
    · rw [Market.hedged_after]
      exact ih.submits reported iterated price
    · rw [Market.hedged_after]
      rcases market.believed_cases ran member with ⟨same, nothing⟩ | ⟨⟨n, seeds, rung⟩, found | fresh⟩
      · rw [nothing, Market.placed_after]
        exact Nat.lt_add_right _ (ih.backed level (iterated.mem_iff.mp (same ▸ member)))
      · -- What rests at the level keeps it from being hedged in this cycle.
        have none_hedged : (submits config poll (orders reports) levels).countP
            (fun other => other.1 = level.1) = 0 := by
          rw [List.countP_eq_zero]
          intro other hedged same
          obtain ⟨-, absent, -⟩ := Market.mem_submits reported iterated hedged
          rw [of_decide_eq_true same] at absent
          exact absent found
        rw [none_hedged, Market.placed_after]
        exact Nat.lt_add_right _ (owned n seeds level.1 rung found)
      · have submitted : _ + (submits config poll (orders reports) levels).countP _ ≤ _ :=
          ih.submits reported iterated level.1
        have some_left : market.left level.1 ≤ market.placed level.1 := Nat.le_add_left _ _
        omega

end Ownership

end Markets

/-- The grid on a book where another party's order rests at 90. -/
def crowded : Market Int := Market.new.joined (limitOrder grid.primary grid.symbol true 90 7)

/-- The grid's own order at 95 leaves the ladder that is seeded on an empty book, while another party's
order rests at 90. -/
def shared : Market Int :=
  ((Market.new.after grid (pollAt 9 9) [] [] ⟨.seeded, ladderAt, [], ladderAt.map (legOf grid)⟩).joined
    (limitOrder grid.primary grid.symbol true 90 7)).without
      [⟨legOf grid (90, true), true⟩] ⟨legOf grid (95, true), true⟩
      (([(100, false), (105, false), (110, false)].map fun level => ⟨legOf grid level, true⟩) ++
        [⟨limitOrder grid.primary grid.symbol true 90 7, false⟩])

end LongTrader.Strategy.HedgeGrid
