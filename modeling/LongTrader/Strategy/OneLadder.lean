import LongTrader.Strategy.SimpleGrid
import Mathlib.Algebra.Order.Group.Multiset
import Mathlib.Algebra.Order.Ring.Int

/-! How many orders of the grid rest. Each of them is a level that the grid tracks or will take up
from its file, and the grid tracks one ladder at most. -/

namespace LongTrader.Strategy.SimpleGrid

variable {P : Type}

section Placing

variable {creates : Nat → CreateAnswer} {level : GridLevel P} {rest : Placements P}

theorem placeLevelOrder_prices (answer : CreateAnswer) :
    (placeLevelOrder answer level rest).levels.map GridLevel.price =
      level.price :: rest.levels.map GridLevel.price := by
  cases answer <;> rfl

/-- What rests beside an order that is placed is among the other levels. -/
theorem placeLevelOrder_le (answer : CreateAnswer) {resting : Multiset (GridLevel P)}
    (others : resting + ↑rest.accepted ≤ ↑rest.levels) :
    resting + ↑(placeLevelOrder answer level rest).accepted ≤ ↑(placeLevelOrder answer level rest).levels := by
  cases answer with
  | refused error => exact others.trans (Multiset.le_cons_self _ _)
  | accepted orderId =>
    simp only [placeLevelOrder, ← Multiset.cons_coe, Multiset.add_cons]
    exact Multiset.cons_le_cons _ others
  | lost error =>
    simp only [placeLevelOrder, ← Multiset.cons_coe, Multiset.add_cons]
    exact Multiset.cons_le_cons _ others

theorem placeLevels_prices (count : Nat) (levels : List (GridLevel P)) :
    (placeLevels creates count levels).levels.map GridLevel.price = levels.map GridLevel.price := by
  induction levels generalizing count with
  | nil => rfl
  | cons level rest ih => rw [placeLevels, placeLevelOrder_prices, ih, List.map_cons]

theorem placeLevels_le (count : Nat) (levels : List (GridLevel P)) :
    (0 : Multiset (GridLevel P)) + ↑(placeLevels creates count levels).accepted ≤
      ↑(placeLevels creates count levels).levels := by
  induction levels generalizing count with
  | nil => exact le_refl _
  | cons level rest ih => exact placeLevelOrder_le (creates count) (ih (count + 1))

end Placing

section Cancelling

theorem mem_cancelTrackedOrders {cancels : String → Option PortError} {levels book : List (GridLevel P)}
    {order : GridLevel P} (left : order ∈ cancelTrackedOrders cancels levels book) :
    order ∈ book ∧ ∀ level ∈ levels, level.orderId ≠ "" → cancels level.orderId = none →
      order.orderId ≠ level.orderId := by
  induction levels generalizing book with
  | nil => exact ⟨left, by simp⟩
  | cons level rest ih =>
    rw [cancelTrackedOrders, List.foldl_cons] at left
    obtain ⟨member, others⟩ := ih left
    split at member
    · rename_i unplaced
      exact ⟨member, List.forall_mem_cons.mpr ⟨fun placed => absurd unplaced placed, others⟩⟩
    · split at member
      · rename_i refused
        refine ⟨member, List.forall_mem_cons.mpr ⟨fun _ accepted => ?_, others⟩⟩
        rw [accepted] at refused
        cases refused
      · obtain ⟨member, other⟩ := List.mem_filter.mp member
        exact ⟨member, List.forall_mem_cons.mpr ⟨fun _ _ => by simpa using other, others⟩⟩

/-- With every cancel accepted, nothing is left of a book of tracked orders. -/
theorem cancelTrackedOrders_eq_nil {cancels : String → Option PortError} {levels book : List (GridLevel P)}
    (tracked : book.Subperm levels)
    (accepted : ∀ order ∈ book, order.orderId ≠ "" ∧ cancels order.orderId = none) :
    cancelTrackedOrders cancels levels book = [] := by
  refine List.eq_nil_iff_forall_not_mem.mpr fun order left => ?_
  obtain ⟨member, others⟩ := mem_cancelTrackedOrders left
  obtain ⟨placed, cancelled⟩ := accepted order member
  exact others order (tracked.subset member) placed cancelled rfl

end Cancelling

variable [LinearOrder P]

theorem inBand_iff (config : SimpleGridConfig P) (price : P) :
    config.inBand price = true ↔ config.lowerPrice ≤ price ∧ price ≤ config.upperPrice := by
  simp [SimpleGridConfig.inBand]

theorem restoreLevels_inBand (config : SimpleGridConfig P) (files : Files P) :
    ∀ price ∈ (restoreLevels config files).map GridLevel.price, config.inBand price = true := by
  unfold restoreLevels
  split
  · simp
  · split
    · simp
    · intro price member
      obtain ⟨level, kept, rfl⟩ := List.mem_map.mp member
      exact (List.mem_filter.mp kept).2

/-- The file of an empty ladder restores nothing, nor does no file. -/
theorem restoreLevels_persisted_nil (config : SimpleGridConfig P) (files : Files P) :
    restoreLevels config (persistLevels config [] files) = [] := by
  unfold restoreLevels persistLevels
  split
  · rfl
  · rename_i path configured
    simp [configured]

section Tracking

variable {world : World P} {poll : Poll P} {placements : Placements P}

/-- The ladder that a grid tracks, or that it takes up first thing. -/
def World.tracked (world : World P) : List (GridLevel P) :=
  if world.levels = [] then restoreLevels world.config world.files else world.levels

/-- The kill switch, if it is tripped, gets every order off the book. -/
def World.Clears (world : World P) (poll : Poll P) (placements : Placements P) : Prop :=
  maxConsecutiveErrors ≤ placements.errors →
    ∀ order ∈ world.book ++ placements.accepted, order.orderId ≠ "" ∧ poll.cancels order.orderId = none

/-- One ladder: what rests is tracked, and what is tracked is a ladder in the band. -/
structure World.OneLadder (world : World P) (book levels : List (GridLevel P)) : Prop where
  resting : book.Subperm levels
  length : levels.length ≤ world.config.numLevels + 1
  inBand : ∀ price ∈ levels.map GridLevel.price, world.config.inBand price = true

/-- Behind a kill switch that clears the book there is nothing. -/
theorem World.OneLadder.trip
    (placed : world.OneLadder (world.book ++ placements.accepted) placements.levels)
    (clears : world.Clears poll placements) (tripped : maxConsecutiveErrors ≤ placements.errors) :
    (world.trip poll placements).OneLadder (world.trip poll placements).book
      (world.trip poll placements).tracked := by
  have empty : (world.trip poll placements).book = [] :=
    cancelTrackedOrders_eq_nil placed.resting (clears tripped)
  have nothing : (world.trip poll placements).tracked = [] :=
    restoreLevels_persisted_nil world.config world.files
  rw [empty, nothing]
  exact ⟨.refl _, Nat.zero_le _, by simp⟩

theorem World.OneLadder.bounds {book levels : List (GridLevel P)} (kept : world.OneLadder book levels) :
    book.length ≤ world.config.numLevels + 1 ∧ ∀ order ∈ book, world.config.inBand order.price = true :=
  ⟨kept.resting.length_le.trans kept.length, fun _ member =>
    kept.inBand _ (List.mem_map_of_mem (kept.resting.subset member))⟩

end Tracking

variable [Zero P] [Add P] [Sub P] [Div P] [NatCast P]

section Seeding

variable (config : SimpleGridConfig P) (current : P) (ulids : Nat → String)

theorem levelsFrom_length (room count : Nat) (price : P) :
    (levelsFrom config current ulids room count price).length ≤ room := by
  induction room generalizing count price with
  | zero => exact Nat.le_refl 0
  | succ room ih =>
    rw [levelsFrom]
    split
    · exact Nat.succ_le_succ (ih (count + 1) _)
    · exact Nat.zero_le _

theorem calculateLevels_length :
    (calculateLevels config current ulids).length ≤ config.numLevels + 1 := by
  rw [calculateLevels]
  split
  · exact Nat.zero_le _
  · exact levelsFrom_length config current ulids _ _ _

variable (grows : ∀ price step : P, 0 < step → price ≤ price + step)

include grows

theorem levelsFrom_inBand (steep : 0 < gridStep config) (room count : Nat) {price : P}
    (above : config.lowerPrice ≤ price) :
    ∀ rung ∈ (levelsFrom config current ulids room count price).map GridLevel.price,
      config.inBand rung = true := by
  induction room generalizing count price with
  | zero => simp [levelsFrom]
  | succ room ih =>
    rw [levelsFrom]
    split
    · rename_i below
      refine List.forall_mem_cons.mpr ⟨(inBand_iff config price).mpr ⟨above, below⟩, ?_⟩
      exact ih (count + 1) (above.trans (grows price _ steep))
    · simp

theorem calculateLevels_inBand :
    ∀ rung ∈ (calculateLevels config current ulids).map GridLevel.price, config.inBand rung = true := by
  rw [calculateLevels]
  split
  · simp
  · rename_i steep
    exact levelsFrom_inBand config current ulids grows (not_le.mp steep) _ _ (le_refl _)

end Seeding

/-- Whether a level is flipped: the venue does not show it, and its other side is in the band. -/
def isGone (config : SimpleGridConfig P) (alive : GridLevel P → Bool) (level : GridLevel P) : Bool :=
  !alive level && config.inBand (flip config "" level).price

section Flipping

variable (config : SimpleGridConfig P) (poll : Poll P) (alive : GridLevel P → Bool)

theorem flipLevels_eq (count : Nat) (level : GridLevel P) (rest : List (GridLevel P)) :
    flipLevels config poll alive count (level :: rest) =
      if isGone config alive level then
        placeLevelOrder (poll.creates count) (flip config (poll.ulids count) level)
          (flipLevels config poll alive (count + 1) rest)
      else
        { flipLevels config poll alive count rest with
          levels := level :: (flipLevels config poll alive count rest).levels } := by
  have samePrice : (flip config (poll.ulids count) level).price = (flip config "" level).price := rfl
  rw [flipLevels, isGone]
  simp only [samePrice]
  cases alive level with
  | true => rfl
  | false =>
    by_cases outside : (flip config "" level).price < config.lowerPrice ∨
        config.upperPrice < (flip config "" level).price
    · have off : config.inBand (flip config "" level).price = false := by
        rw [Bool.eq_false_iff, ne_eq, inBand_iff, not_and_or, not_le, not_le]
        exact outside
      simp [outside, off]
    · have inside : config.inBand (flip config "" level).price = true := by
        rw [inBand_iff]
        rwa [not_or, not_lt, not_lt] at outside
      simp [outside, inside]

theorem flipLevels_length (count : Nat) (levels : List (GridLevel P)) :
    (flipLevels config poll alive count levels).levels.length = levels.length := by
  induction levels generalizing count with
  | nil => rfl
  | cons level rest ih =>
    rw [flipLevels_eq]
    split
    · have prices := congrArg List.length (@placeLevelOrder_prices P (flip config (poll.ulids count) level)
        (flipLevels config poll alive (count + 1) rest) (poll.creates count))
      rw [List.length_map, List.length_cons, List.length_map, ih] at prices
      rw [prices, List.length_cons]
    · rw [List.length_cons, List.length_cons, ih]

theorem flipLevels_inBand (count : Nat) (levels : List (GridLevel P))
    (inside : ∀ price ∈ levels.map GridLevel.price, config.inBand price = true) :
    ∀ price ∈ (flipLevels config poll alive count levels).levels.map GridLevel.price,
      config.inBand price = true := by
  induction levels generalizing count with
  | nil => exact inside
  | cons level rest ih =>
    obtain ⟨first, others⟩ := List.forall_mem_cons.mp inside
    rw [flipLevels_eq]
    split
    · rename_i gone
      rw [placeLevelOrder_prices]
      exact List.forall_mem_cons.mpr ⟨(Bool.and_eq_true_iff.mp gone).2, ih (count + 1) others⟩
    · exact List.forall_mem_cons.mpr ⟨first, ih count others⟩

/-- What rests and is not flipped, and what the flips place, are levels of the ladder that is
tracked afterwards. -/
theorem flipLevels_le (count : Nat) (levels : List (GridLevel P)) (resting : Multiset (GridLevel P))
    (tracked : resting ≤ ↑levels) (known : ∀ order ∈ resting, isGone config alive order = false) :
    resting + ↑(flipLevels config poll alive count levels).accepted ≤
      ↑(flipLevels config poll alive count levels).levels := by
  induction levels generalizing count resting with
  | nil => simpa [flipLevels] using tracked
  | cons level rest ih =>
    rw [← Multiset.cons_coe] at tracked
    rw [flipLevels_eq]
    split
    · rename_i gone
      have absent : level ∉ resting := fun member => by
        rw [known level member] at gone
        cases gone
      exact placeLevelOrder_le _ (ih (count + 1) resting
        ((Multiset.le_cons_of_notMem absent).mp tracked) known)
    · have others : resting.erase level ≤ ↑rest := Multiset.erase_le_iff_le_cons.mpr tracked
      have below := ih count (resting.erase level) others
        fun order member => known order (Multiset.mem_of_mem_erase member)
      calc resting + ↑(flipLevels config poll alive count rest).accepted
          ≤ level ::ₘ resting.erase level + ↑(flipLevels config poll alive count rest).accepted := by
            gcongr
            exact Multiset.le_cons_erase resting level
        _ ≤ _ := by
            rw [Multiset.cons_add, ← Multiset.cons_coe]
            exact Multiset.cons_le_cons _ below

end Flipping

section Worlds

variable {world : World P} {poll : Poll P} {placements : Placements P}

/-- No order that rests is taken for filled. -/
def World.Shows (world : World P) (poll : Poll P) : Prop :=
  world.reconciles poll = true → ∀ order ∈ world.book, isGone world.config (isAlive poll.shown) order = false

/-- What an event must not do: an order that rests is not taken for filled, the kill switch does not leave
an order behind, and a restart finds every order that rests in the ladder that it takes up, which is no
longer than it may be. -/
def World.Meets (world : World P) : Event P → Prop
  | .leaves _ => True
  | .rebalances poll => world.Shows poll ∧ ∀ placements, (world.cycle poll).placements = some placements →
      world.Clears poll placements
  | .restarts config => world.book.Subperm (restoreLevels config world.files) ∧
      (restoreLevels config world.files).length ≤ config.numLevels + 1

/-- What a cycle does, by the ladder that it finds. -/
theorem World.cycle_cases (world : World P) (poll : Poll P) :
    world.cycle poll = .fails ∨ ∃ current, currentPrice poll = some current ∧
      ((world.levels = [] ∧ restoreLevels world.config world.files ≠ [] ∧
          world.cycle poll = .resumes (restoreLevels world.config world.files)) ∨
        (world.levels = [] ∧ restoreLevels world.config world.files = [] ∧ world.cycle poll =
          .seeds (placeLevels poll.creates 0 (calculateLevels world.config current poll.ulids))) ∨
        (world.levels ≠ [] ∧ world.cycle poll =
          .flips (flipLevels world.config poll (isAlive poll.shown) 0 world.levels))) := by
  unfold World.cycle
  cases currentPrice poll with
  | none => exact .inl rfl
  | some current =>
    by_cases untracked : world.levels = []
    · simp only [untracked, if_true]
      by_cases readable : poll.stateReadable = true
      · simp only [readable, if_true]
        by_cases unsaved : restoreLevels world.config world.files = []
        · simp [unsaved]
        · simp [unsaved]
      · simp [readable]
    · cases read : poll.openOrders with
      | error error => simp [untracked]
      | ok shown => simp [untracked, Poll.shown, read]

/-- What a grid without a ladder places is one ladder, as nothing rests. -/
theorem World.OneLadder.seeded (grows : ∀ price step : P, 0 < step → price ≤ price + step)
    (kept : world.OneLadder world.book world.tracked) (untracked : world.levels = [])
    (unsaved : restoreLevels world.config world.files = []) (current : P) :
    let placements := placeLevels poll.creates 0 (calculateLevels world.config current poll.ulids)
    world.OneLadder (world.book ++ placements.accepted) placements.levels := by
  intro placements
  have nothing : world.book = [] := by
    have resting := kept.resting
    rw [World.tracked, if_pos untracked, unsaved] at resting
    exact List.subperm_nil.mp resting
  have size := congrArg List.length (@placeLevels_prices P poll.creates 0
    (calculateLevels world.config current poll.ulids))
  rw [List.length_map, List.length_map] at size
  refine ⟨?_, ?_, ?_⟩
  · have below := @placeLevels_le P poll.creates 0 (calculateLevels world.config current poll.ulids)
    rw [Multiset.zero_add] at below
    rw [nothing]
    exact Multiset.coe_le.mp below
  · rw [size]
    exact calculateLevels_length world.config current poll.ulids
  · rw [placeLevels_prices]
    exact calculateLevels_inBand world.config current poll.ulids grows

/-- What a grid places for its ladder keeps it to one ladder, if no order that rests is taken for filled. -/
theorem World.OneLadder.flipped (kept : world.OneLadder world.book world.levels)
    (shows : ∀ order ∈ world.book, isGone world.config (isAlive poll.shown) order = false) :
    let placements := flipLevels world.config poll (isAlive poll.shown) 0 world.levels
    world.OneLadder (world.book ++ placements.accepted) placements.levels := by
  intro placements
  refine ⟨?_, ?_, ?_⟩
  · refine Multiset.coe_le.mp ?_
    rw [← Multiset.coe_add]
    exact flipLevels_le _ _ _ 0 world.levels world.book (Multiset.coe_le.mpr kept.resting) shows
  · rw [flipLevels_length]
    exact kept.length
  · exact flipLevels_inBand _ _ _ 0 world.levels kept.inBand

/-- What a grid with a tracked ladder places keeps it to one ladder. -/
theorem World.OneLadder.placed (grows : ∀ price step : P, 0 < step → price ≤ price + step)
    (kept : world.OneLadder world.book world.tracked) (shows : world.Shows poll)
    (places : (world.cycle poll).placements = some placements) :
    world.OneLadder (world.book ++ placements.accepted) placements.levels := by
  rcases world.cycle_cases poll with fails | ⟨current, -, cycle⟩
  · rw [fails] at places
    cases places
  rcases cycle with ⟨-, -, resumes⟩ | ⟨untracked, unsaved, seeds⟩ | ⟨tracked, flips⟩
  · rw [resumes] at places
    cases places
  · rw [seeds] at places
    obtain rfl := Option.some.inj places
    exact kept.seeded grows untracked unsaved current
  · have reconciles : world.reconciles poll = true := by rw [World.reconciles, flips]
    rw [flips] at places
    obtain rfl := Option.some.inj places
    rw [World.tracked, if_neg tracked] at kept
    exact kept.flipped (shows reconciles)

theorem World.OneLadder.rebalance (grows : ∀ price step : P, 0 < step → price ≤ price + step)
    (kept : world.OneLadder world.book world.tracked) (meets : world.Meets (.rebalances poll)) :
    (world.rebalance poll).OneLadder (world.rebalance poll).book (world.rebalance poll).tracked := by
  obtain ⟨shows, clears⟩ := meets
  rw [World.rebalance]
  rcases world.cycle_cases poll with fails | ⟨current, -, cycle⟩
  · rw [fails]
    exact kept
  rcases cycle with ⟨untracked, some_saved, resumes⟩ | ⟨-, -, seeds⟩ | ⟨tracked, flips⟩
  · rw [resumes]
    have taken_up : World.tracked { world with levels := restoreLevels world.config world.files } =
        restoreLevels world.config world.files := if_neg some_saved
    rw [World.tracked, if_pos untracked] at kept
    rw [taken_up]
    exact ⟨kept.resting, kept.length, kept.inBand⟩
  · have places := congrArg Cycle.placements seeds
    have placed := kept.placed grows shows places
    rw [seeds]
    generalize placeLevels poll.creates 0 (calculateLevels world.config current poll.ulids) = placements
      at places placed
    dsimp only
    by_cases tripped : maxConsecutiveErrors ≤ placements.errors
    · rw [World.seed, if_pos tripped]
      exact placed.trip (clears placements places) tripped
    · rw [World.seed, if_neg tripped]
      -- An empty ladder is saved as such, so that nothing else is taken up in its place.
      have tracked : World.tracked { world with
          levels := placements.levels
          files := persistLevels world.config placements.levels world.files
          book := world.book ++ placements.accepted } = placements.levels := by
        by_cases none_left : placements.levels = []
        · rw [World.tracked, if_pos none_left, none_left]
          exact restoreLevels_persisted_nil world.config world.files
        · exact if_neg none_left
      rw [tracked]
      exact ⟨placed.resting, placed.length, placed.inBand⟩
  · have places := congrArg Cycle.placements flips
    have placed := kept.placed grows shows places
    have some_left : (flipLevels world.config poll (isAlive poll.shown) 0 world.levels).levels ≠ [] := by
      rw [ne_eq, ← List.length_eq_zero_iff, flipLevels_length]
      exact fun none_left => tracked (List.eq_nil_of_length_eq_zero none_left)
    rw [flips]
    generalize flipLevels world.config poll (isAlive poll.shown) 0 world.levels = placements
      at places placed some_left
    dsimp only
    by_cases tripped : maxConsecutiveErrors ≤ placements.errors
    · rw [World.update, if_pos tripped]
      exact placed.trip (clears placements places) tripped
    · rw [World.update, if_neg tripped]
      have tracked : World.tracked { world with
          levels := placements.levels
          book := world.book ++ placements.accepted } = placements.levels := if_neg some_left
      rw [tracked]
      exact ⟨placed.resting, placed.length, placed.inBand⟩

theorem World.OneLadder.step (grows : ∀ price step : P, 0 < step → price ≤ price + step)
    {event : Event P} (kept : world.OneLadder world.book world.tracked) (meets : world.Meets event) :
    (world.step event).OneLadder (world.step event).book (world.step event).tracked := by
  cases event with
  | leaves index =>
    exact ⟨(world.book.eraseIdx_sublist index).subperm.trans kept.resting, kept.length, kept.inBand⟩
  | rebalances poll => exact kept.rebalance grows meets
  | restarts config => exact ⟨meets.1, meets.2, restoreLevels_inBand config world.files⟩

/-- Every event of a run meets its condition in the world in which it happens. -/
def World.Sound (world : World P) : List (Event P) → Prop
  | [] => True
  | event :: rest => world.Meets event ∧ (world.step event).Sound rest

theorem World.OneLadder.run (grows : ∀ price step : P, 0 < step → price ≤ price + step)
    {events : List (Event P)} (kept : world.OneLadder world.book world.tracked) (sound : world.Sound events) :
    (world.run events).OneLadder (world.run events).book (world.run events).tracked := by
  induction events generalizing world with
  | nil => exact kept
  | cons event rest ih => exact ih (kept.step grows sound.1) sound.2

/-- A grid never has more than one ladder on its venue, and all of it in the band, in a run in which no
order that rests is taken for filled, the kill switch leaves no order behind and a restart finds all that
rest in its file. This holds within a cycle too. -/
theorem never_two_ladders (grows : ∀ price step : P, 0 < step → price ≤ price + step)
    (config : SimpleGridConfig P) {events : List (Event P)} (sound : (World.start config).Sound events) :
    let world := (World.start config).run events
    (world.book.length ≤ world.config.numLevels + 1 ∧
      ∀ order ∈ world.book, world.config.inBand order.price = true) ∧
    ∀ poll placements, world.Shows poll → (world.cycle poll).placements = some placements →
      (world.book ++ placements.accepted).length ≤ world.config.numLevels + 1 ∧
        ∀ order ∈ world.book ++ placements.accepted, world.config.inBand order.price = true := by
  have start : (World.start config).OneLadder (World.start config).book (World.start config).tracked := by
    have nothing : (World.start config).tracked = [] := by
      simp [World.tracked, World.start, restoreLevels]
      split <;> rfl
    rw [nothing]
    exact ⟨.refl _, Nat.zero_le _, by simp⟩
  have kept := start.run grows sound
  exact ⟨kept.bounds, fun poll placements shows places => (kept.placed grows shows places).bounds⟩

end Worlds

/-- Five levels between 90 and 110, with a state file. -/
def grid : SimpleGridConfig Int := ⟨90, 110, 4, some "grid.json"⟩

/-- A cycle at a price of 100 in which the venue shows open orders, by their ULIDs and prices, and accepts
the first submissions, and the cancels if it is asked for any. The ids go on from `base`. -/
def pollFrom (base : Nat) (accepted : Nat) (cancels : Bool) (shown : List (Nat × Int)) : Poll Int where
  ticker := .ok ⟨some (.ok 100), none, none, none⟩
  stateReadable := true
  openOrders := .ok (shown.map fun order => ⟨coid (toString order.1), some (.ok order.2)⟩)
  ulids n := toString (base + n)
  creates n := if n < accepted then .accepted (toString (base + n)) else .refused (.transport "refused")
  cancels _ := if cancels then none else some (.transport "refused")

/-- The five levels as they are seeded, as the venue shows it. -/
def seededOrders : List (Nat × Int) := [(0, 90), (1, 95), (2, 100), (3, 105), (4, 110)]

/-- The ladder is seeded and taken up again after a restart, and the level at 95 is filled and
flipped. -/
def resumed : List (Event Int) :=
  [.rebalances (pollFrom 0 9 true []), .restarts grid, .rebalances (pollFrom 10 9 true []), .leaves 1,
    .rebalances (pollFrom 20 9 true (seededOrders.eraseIdx 1))]

theorem never_two_ladders_resumed :
    let world := (World.start grid).run resumed
    (world.book.length ≤ world.config.numLevels + 1 ∧
      ∀ order ∈ world.book, world.config.inBand order.price = true) ∧
    world.book.map GridLevel.price = [90, 100, 105, 110, 100] := by
  have untripped : ∀ {world : World Int} {poll : Poll Int} {placements : Placements Int},
      placements.errors = 0 → world.Clears poll placements := by
    intro world poll placements none_refused tripped
    rw [none_refused] at tripped
    cases tripped
  have sound : (World.start grid).Sound resumed := by
    refine ⟨⟨nofun, ?_⟩, ⟨by decide +kernel, by decide +kernel⟩, ⟨nofun, ?_⟩, trivial,
      ⟨fun _ => by decide +kernel, ?_⟩, trivial⟩
    · intro placements places
      cases places
      exact untripped rfl
    · intro placements places
      cases places
    · intro placements places
      cases places
      exact untripped rfl
  exact ⟨(never_two_ladders (fun price step positive => by omega) grid sound).1, by decide +kernel⟩

/-- A ladder that is flipped, and then restored as it was seeded. -/
def restoredLate : List (Event Int) :=
  let standing := seededOrders.eraseIdx 1
  let flipped := standing ++ [(10, 100)]
  [.rebalances (pollFrom 0 9 true []), .leaves 1, .rebalances (pollFrom 10 9 true standing),
    .restarts grid, .rebalances (pollFrom 20 9 true flipped), .rebalances (pollFrom 30 9 true flipped)]

/-- A ladder that trips the kill switch as it is seeded, with every cancel refused. -/
def uncancelled : List (Event Int) :=
  [.rebalances (pollFrom 0 2 false []), .rebalances (pollFrom 10 9 true [])]

/-- After a restart the level that was flipped is flipped once more, and behind a kill switch whose
cancels fail a second ladder is seeded. -/
theorem second_ladder :
    ((World.start grid).run restoredLate).book.length = 6 ∧ grid.numLevels + 1 = 5 ∧
      ((World.start { grid with upperPrice := 120, numLevels := 6 }).run uncancelled).book.length = 9 := by
  decide +kernel

end LongTrader.Strategy.SimpleGrid
