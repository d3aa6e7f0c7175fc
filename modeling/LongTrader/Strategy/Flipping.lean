import LongTrader.Strategy.Persistence

/-! Which levels the simple grid flips. It takes a level that the venue does not show for filled, be
its order filled or cancelled, or never accepted. -/

namespace LongTrader.Strategy.SimpleGrid

variable {P : Type} [LinearOrder P] [Zero P] [Add P] [Sub P] [Div P] [NatCast P]

/-- The orders that a cycle places for the levels that are gone, each with its level. -/
def flipOrders (config : SimpleGridConfig P) (ulids : Nat → String) (alive : GridLevel P → Bool) :
    Nat → List (GridLevel P) → List (GridLevel P × GridLevel P)
  | _, [] => []
  | count, level :: rest =>
    if isGone config alive level then
      (level, flip config (ulids count) level) :: flipOrders config ulids alive (count + 1) rest
    else flipOrders config ulids alive count rest

section Orders

variable {config : SimpleGridConfig P} {poll : Poll P} {alive : GridLevel P → Bool}

theorem mem_flipOrders {count : Nat} {levels : List (GridLevel P)} {placed : GridLevel P × GridLevel P}
    (member : placed ∈ flipOrders config poll.ulids alive count levels) :
    placed.1 ∈ levels ∧ isGone config alive placed.1 = true ∧ placed.2.side ≠ placed.1.side := by
  induction levels generalizing count with
  | nil => cases member
  | cons level rest ih =>
    rw [flipOrders] at member
    split at member
    · rename_i gone
      rcases List.mem_cons.mp member with rfl | later
      · exact ⟨List.mem_cons_self .., gone, flip_side config _ _⟩
      · obtain ⟨old, others⟩ := ih later
        exact ⟨List.mem_cons_of_mem _ old, others⟩
    · obtain ⟨old, others⟩ := ih member
      exact ⟨List.mem_cons_of_mem _ old, others⟩

theorem exists_flipOrder {count : Nat} {levels : List (GridLevel P)} {level : GridLevel P}
    (member : level ∈ levels) (gone : isGone config alive level = true) :
    ∃ order, (level, order) ∈ flipOrders config poll.ulids alive count levels := by
  induction levels generalizing count with
  | nil => cases member
  | cons first rest ih =>
    rw [flipOrders]
    rcases List.mem_cons.mp member with rfl | later
    · rw [if_pos gone]
      exact ⟨_, List.mem_cons_self ..⟩
    · split
      · obtain ⟨order, placed⟩ := @ih (count + 1) later
        exact ⟨order, List.mem_cons_of_mem _ placed⟩
      · exact @ih count later

end Orders

/-- A run as it is audited: the grid, and all the orders that the venue has accepted. -/
structure Audit (P : Type) where
  world : World P
  accepted : List (GridLevel P)

/-- The orders that the venue accepts in an event. -/
def World.acceptedIn (world : World P) : Event P → List (GridLevel P)
  | .rebalances poll => ((world.cycle poll).placements.map Placements.accepted).getD []
  | .leaves _ | .restarts _ => []

def Audit.step (audit : Audit P) (event : Event P) : Audit P :=
  ⟨audit.world.step event, audit.accepted ++ audit.world.acceptedIn event⟩

def Audit.start (config : SimpleGridConfig P) : Audit P := ⟨.start config, []⟩

/-- The orders of a cycle that reconciles, each with the level that it is placed for. -/
def World.orders (world : World P) (poll : Poll P) : List (GridLevel P × GridLevel P) :=
  flipOrders world.config poll.ulids (isAlive poll.shown) 0 world.levels

/-- The opposite leg of a level is placed only if the order that it carried had been accepted. -/
def Audit.FlipsFilled (audit : Audit P) : Event P → Prop
  | .rebalances poll => audit.world.reconciles poll = true → ∀ placed ∈ audit.world.orders poll,
      placed.2.side ≠ placed.1.side → placed.1 ∈ audit.accepted
  | .leaves _ | .restarts _ => True

/-- A level whose placement failed is placed again on its own side. -/
def Audit.Replaces (audit : Audit P) : Event P → Prop
  | .rebalances poll => audit.world.reconciles poll = true → ∀ level ∈ audit.world.levels,
      level ∉ audit.accepted → ∃ order, (level, order) ∈ audit.world.orders poll ∧ order.side = level.side
  | .leaves _ | .restarts _ => True

/-- Every level of a ladder that is reconciled carries an order that had been accepted. -/
def Audit.Carried (audit : Audit P) : Event P → Prop
  | .rebalances poll => audit.world.reconciles poll = true → ∀ level ∈ audit.world.levels,
      level ∈ audit.accepted
  | .leaves _ | .restarts _ => True

/-- Every level that is gone carries an order that had been accepted. -/
def Audit.GoneCarried (audit : Audit P) : Event P → Prop
  | .rebalances poll => audit.world.reconciles poll = true → ∀ level ∈ audit.world.levels,
      isGone audit.world.config (isAlive poll.shown) level = true →
        level ∈ audit.accepted
  | .leaves _ | .restarts _ => True

/-- Every placement of a cycle succeeds, or so many fail that the kill switch trips. -/
def Audit.Decisive (audit : Audit P) : Event P → Prop
  | .rebalances poll => ∀ placements, (audit.world.cycle poll).placements = some placements →
      placements.errors = 0 ∨ maxConsecutiveErrors ≤ placements.errors
  | .leaves _ | .restarts _ => True

section Audits

variable {audit : Audit P}

theorem Audit.flipsFilled_iff (event : Event P) : audit.FlipsFilled event ↔ audit.GoneCarried event := by
  cases event with
  | leaves index => exact Iff.rfl
  | restarts config => exact Iff.rfl
  | rebalances poll =>
    refine forall_congr' fun _ => ⟨fun filled level member gone => ?_, fun carried placed member _ => ?_⟩
    · obtain ⟨order, placed⟩ := @exists_flipOrder P _ _ _ _ _ _ _ poll _ 0 _ _ member gone
      exact filled _ placed (mem_flipOrders placed).2.2
    · obtain ⟨old, gone, _⟩ := mem_flipOrders member
      exact carried _ old gone

/-- As no level is ever placed again, there must be none to be. -/
theorem Audit.follows_iff (event : Event P) :
    audit.FlipsFilled event ∧ audit.Replaces event ↔ audit.Carried event := by
  rw [Audit.flipsFilled_iff]
  cases event with
  | leaves index => exact and_self_iff
  | restarts config => exact and_self_iff
  | rebalances poll =>
    constructor
    · rintro ⟨_, replaces⟩ reconciles level member
      by_contra refused
      obtain ⟨order, placed, side⟩ := replaces reconciles level member refused
      exact (mem_flipOrders placed).2.2 side
    · intro carried
      exact ⟨fun reconciles level member _ => carried reconciles level member,
        fun reconciles level member refused => absurd (carried reconciles level member) refused⟩

omit [LinearOrder P] [Zero P] [Add P] [Sub P] [Div P] [NatCast P] in
theorem placeLevelOrder_accepted {answer : CreateAnswer} {level : GridLevel P}
    {rest : Placements P} (none_failed : (placeLevelOrder answer level rest).errors = 0) :
    rest.errors = 0 ∧ ∃ placed, (placeLevelOrder answer level rest).levels = placed :: rest.levels ∧
      (placeLevelOrder answer level rest).accepted = placed :: rest.accepted := by
  cases answer with
  | refused error => cases none_failed
  | lost error => cases none_failed
  | accepted orderId => exact ⟨none_failed, _, rfl, rfl⟩

omit [LinearOrder P] [Zero P] [Add P] [Sub P] [Div P] [NatCast P] in
theorem placeLevels_accepted {creates : Nat → CreateAnswer} {count : Nat}
    {levels : List (GridLevel P)} (none_failed : (placeLevels creates count levels).errors = 0) :
    (placeLevels creates count levels).levels = (placeLevels creates count levels).accepted := by
  induction levels generalizing count with
  | nil => rfl
  | cons level rest ih =>
    obtain ⟨others, placed, levels, accepted⟩ := placeLevelOrder_accepted none_failed
    rw [placeLevels, levels, accepted, ih others]

theorem flipLevels_accepted_or_old {config : SimpleGridConfig P} {poll : Poll P}
    {alive : GridLevel P → Bool} {count : Nat} {levels : List (GridLevel P)}
    (none_failed : (flipLevels config poll alive count levels).errors = 0) :
    ∀ level ∈ (flipLevels config poll alive count levels).levels,
      level ∈ levels ∨ level ∈ (flipLevels config poll alive count levels).accepted := by
  induction levels generalizing count with
  | nil => simp [flipLevels]
  | cons level rest ih =>
    rw [flipLevels_eq] at none_failed ⊢
    split at none_failed
    · rename_i gone
      obtain ⟨others, placed, levels, accepted⟩ := placeLevelOrder_accepted none_failed
      rw [if_pos gone, levels, accepted]
      refine List.forall_mem_cons.mpr ⟨.inr (List.mem_cons_self ..), fun other member => ?_⟩
      exact (ih others other member).imp (List.mem_cons_of_mem _) (List.mem_cons_of_mem _)
    · rename_i stays
      rw [if_neg stays]
      refine List.forall_mem_cons.mpr ⟨.inl (List.mem_cons_self ..), fun other member => ?_⟩
      exact (ih none_failed other member).imp_left (List.mem_cons_of_mem _)

/-- Every level that the grid tracks or has saved carries an order that had been accepted. -/
def Audit.AllCarried (audit : Audit P) : Prop := audit.world.Each (· ∈ audit.accepted)

theorem Audit.AllCarried.step (carried : audit.AllCarried) {event : Event P}
    (decisive : audit.Decisive event) : (audit.step event).AllCarried := by
  have before : audit.world.Each (· ∈ audit.accepted ++ audit.world.acceptedIn event) :=
    ⟨fun level member => List.mem_append_left _ (carried.levels level member),
      fun path levels saved level member => List.mem_append_left _ (carried.files path levels saved level member)⟩
  refine before.step fun poll placements rebalances places quiet level member => ?_
  subst rebalances
  have none_failed : placements.errors = 0 := (decisive placements places).resolve_right quiet
  have accepted : audit.world.acceptedIn (.rebalances poll) = placements.accepted := by
    rw [World.acceptedIn, places]
    rfl
  rw [accepted, List.mem_append]
  rcases audit.world.cycle_cases poll with
    fails | ⟨current, -, ⟨-, -, resumes⟩ | ⟨-, -, seeds⟩ | ⟨-, flips⟩⟩
  · rw [fails] at places
    cases places
  · rw [resumes] at places
    cases places
  · rw [seeds] at places
    obtain rfl := Option.some.inj places
    rw [placeLevels_accepted none_failed] at member
    exact .inr member
  · rw [flips] at places
    obtain rfl := Option.some.inj places
    exact (flipLevels_accepted_or_old none_failed level member).imp_left (carried.levels level)

/-- In a run of the grid, a level is flipped only after its order had been accepted, and placed again
on its own side otherwise, if and only if every ladder that is reconciled carries accepted orders
throughout. It does when no placement of a cycle fails, or so many at once that the kill switch trips. -/
theorem flips_follow_fills_iff (config : SimpleGridConfig P) (events : List (Event P)) :
    (Runs.Along Audit.step (fun audit event => audit.FlipsFilled event ∧ audit.Replaces event)
        (.start config) events ↔
      Runs.Along Audit.step Audit.Carried (.start config) events) ∧
    (Runs.Along Audit.step Audit.FlipsFilled (.start config) events ↔
      Runs.Along Audit.step Audit.GoneCarried (.start config) events) ∧
    (Runs.Along Audit.step Audit.Decisive (.start config) events →
      Runs.Along Audit.step (fun audit event => audit.FlipsFilled event ∧ audit.Replaces event)
        (.start config) events) := by
  have start : (Audit.start config).AllCarried := ⟨by simp [Audit.start, World.start], nofun⟩
  have follows : Runs.Along Audit.step (fun audit event => audit.FlipsFilled event ∧ audit.Replaces event)
        (.start config) events ↔ Runs.Along Audit.step Audit.Carried (.start config) events :=
    @Runs.along_congr _ _ Audit.step (fun _ => True) _ _ (fun _ event _ => Audit.follows_iff event)
      (fun _ _ _ _ => trivial) _ trivial events
  refine ⟨follows, ?_, fun decisive => ?_⟩
  · exact @Runs.along_congr _ _ Audit.step (fun _ => True) _ _ (fun _ event _ => Audit.flipsFilled_iff event)
      (fun _ _ _ _ => trivial) _ trivial events
  · rw [follows]
    refine decisive.imp (fun audit event carried _ => ?_) (fun _ _ carried => carried.step) start
    cases event with
    | leaves index => trivial
    | restarts config => trivial
    | rebalances poll => exact fun _ => carried.levels

/-- With every placement accepted, the level that is filled is the one that is flipped. -/
theorem flips_follow_fills_accepted :
    Runs.Along Audit.step (fun audit event => audit.FlipsFilled event ∧ audit.Replaces event)
      (.start grid) [.rebalances (pollFrom 0 9 true []), .leaves 1,
        .rebalances (pollFrom 10 9 true (seededOrders.eraseIdx 1))] := by
  refine (flips_follow_fills_iff grid _).2.2 ⟨fun placements places => ?_, trivial,
    fun placements places => ?_, trivial⟩
  · cases places
    exact .inl (by decide +kernel)
  · cases places
    exact .inl (by decide +kernel)

/-- The sell at 110 is refused as the ladder is seeded, and the next cycle flips it to a buy at 105. -/
theorem refused_flipped :
    ¬ Runs.Along Audit.step (fun audit event => audit.FlipsFilled event ∧ audit.Replaces event)
      (.start grid) [.rebalances (pollFrom 0 4 true []),
        .rebalances (pollFrom 10 9 true (seededOrders.take 4))] := by
  rintro ⟨-, ⟨filled, -⟩, -⟩
  have carried := filled (by decide +kernel)
    (⟨110, .sell, "grid-4", ""⟩, ⟨105, .buy, "grid-10", ""⟩) (by decide +kernel) (by decide)
  exact absurd carried (by decide +kernel)

end Audits

end LongTrader.Strategy.SimpleGrid
