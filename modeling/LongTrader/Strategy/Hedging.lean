import LongTrader.Strategy.HedgeGrid
import Mathlib.Data.List.Iterate
import Mathlib.Data.List.Induction
import Mathlib.Algebra.Order.Group.Multiset
import Mathlib.Data.Multiset.Basic
import Mathlib.Data.Multiset.UnionInter
import Mathlib.Tactic.Abel

/-! Which orders of the grid are hedged. The levels of the ladder that rest, that have gone
unnoticed, that are hedged and that are lost add up in every run, and none is lost as long as the
run is sound. -/

namespace LongTrader.Strategy.HedgeGrid

section Iterates

variable {α : Type} {f : α → α} {start : α} {keeps : α → Prop} {n : Nat}

/-- A loop that comes to its end has not come by the same value twice. -/
theorem nodup_iterate (all : ∀ value ∈ List.iterate f start n, keeps value)
    (ends : ¬ keeps (f^[n] start)) : (List.iterate f start n).Nodup := by
  rw [List.nodup_iff_getElem?_ne_getElem?]
  intro i j earlier inside again
  rw [List.length_iterate] at inside
  rw [List.getElem?_iterate f start n i (earlier.trans inside),
    List.getElem?_iterate f start n j inside, Option.some.injEq] at again
  have rest : n = (n - j) + j := by omega
  have same : f^[n] start = f^[(n - j) + i] start := by
    conv_lhs => rw [rest]
    rw [Function.iterate_add_apply, Function.iterate_add_apply, again]
  exact ends (same ▸ all _ (List.mem_iterate.mpr ⟨(n - j) + i, by omega, rfl⟩))

/-- A loop that has not come to its end has gone through a first part of it. -/
theorem iterate_prefix {m : Nat} (all : ∀ value ∈ List.iterate f start m, keeps value)
    (ends : ¬ keeps (f^[n] start)) : List.iterate f start m <+: List.iterate f start n := by
  have few : m ≤ n := by
    by_contra more
    exact ends (all _ (List.mem_iterate.mpr ⟨n, by omega, rfl⟩))
  obtain ⟨rest, rfl⟩ := Nat.exists_eq_add_of_le few
  exact ⟨_, (List.iterate_add f start m rest).symm⟩

end Iterates

section Levels

variable {P : Type} (config : HedgeGridConfig P)

/-- The leg of the ladder at a level. -/
def legOf (level : P × Bool) : Request P :=
  limitOrder config.primary config.symbol level.2 level.1 config.qtyPerLevel

/-- The hedge of a level. -/
def hedgeLeg (level : P × Bool) : Request P :=
  marketOrder config.hedge config.symbol (!level.2) config.qtyPerLevel

theorem covers_cons {answers : Nat → CreateAnswer} (level : P × Bool) (rest : List (P × Bool)) :
    Covers answers (level :: rest) ↔
      ((answers 0).isOk ∨ rest = [] ∧ (answers 0).isAccepted) ∧ Covers (fun n => answers (n + 1)) rest := by
  have only : 0 + 1 = (level :: rest).length ↔ rest = [] := by simp
  constructor
  · intro covers
    refine ⟨by simpa only [only] using covers 0 (Nat.zero_lt_succ _), fun i inside => ?_⟩
    simpa using covers (i + 1) (Nat.succ_lt_succ inside)
  · rintro ⟨first, covers⟩ i inside
    cases i with
    | zero => simpa only [only] using first
    | succ i => simpa using covers i (Nat.lt_of_succ_lt_succ inside)

/-- The hedges go down the list to the first error. -/
theorem hedgeLevels_spec (answers : Nat → CreateAnswer) (levels : List (P × Bool)) :
    ∃ done rest, levels = done ++ rest ∧
      (hedgeLevels config answers levels).1 = done.map (hedgeLeg config) ∧
      ((hedgeLevels config answers levels).2 = none → rest = []) ∧ (rest = [] ↔ Covers answers levels) := by
  induction levels generalizing answers with
  | nil => exact ⟨[], [], rfl, rfl, fun _ => rfl, by simp [Covers]⟩
  | cons level rest ih =>
    rw [covers_cons]
    cases answer : answers 0 with
    | refused error =>
      exact ⟨[], level :: rest, rfl, by simp [hedgeLevels, answer], by simp [hedgeLevels, answer],
        by simp [CreateAnswer.isOk, CreateAnswer.isAccepted]⟩
    | lost error =>
      refine ⟨[level], rest, rfl, by simp [hedgeLevels, answer, hedgeLeg], by simp [hedgeLevels, answer], ?_⟩
      simp only [CreateAnswer.isOk, CreateAnswer.isAccepted, Bool.false_eq_true, false_or, and_true]
      exact ⟨fun last => ⟨last, by simp [last, Covers]⟩, And.left⟩
    | accepted orderId =>
      obtain ⟨done, left, rfl, hedged, ended, covers⟩ := ih fun n => answers (n + 1)
      refine ⟨level :: done, left, rfl, ?_, ?_, ?_⟩
      · simp [hedgeLevels, answer, hedged, hedgeLeg]
      · simpa [hedgeLevels, answer] using ended
      · simpa [CreateAnswer.isOk] using covers

variable [LinearOrder P]

/-- The venue reports the side of each level that rests. -/
theorem live_eq_some_iff {resting : List (P × Bool)} (distinct : (resting.map Prod.fst).Nodup)
    (price : P) (isBuy : Bool) :
    live (resting.map (legOf config)) price = some isBuy ↔ (price, isBuy) ∈ resting := by
  induction resting using List.reverseRecOn with
  | nil => simp [live]
  | append_singleton rest level ih =>
    rw [List.map_append, List.map_singleton, List.nodup_append] at distinct
    obtain ⟨distinct, -, apart⟩ := distinct
    have front := ih distinct
    have side : decide ((legOf config level).side = .buy) = level.2 := by
      cases level with
      | mk price isBuy => cases isBuy <;> rfl
    have last : live ((rest ++ [level]).map (legOf config)) =
        Function.update (live (rest.map (legOf config))) level.1 (some level.2) := by
      rw [← side, List.map_append, live, List.foldl_append]
      rfl
    rw [last, List.mem_append, List.mem_singleton]
    by_cases same : price = level.1
    · subst same
      have absent : (level.1, isBuy) ∉ rest := fun member =>
        apart _ (List.mem_map_of_mem member) _ (List.mem_singleton.mpr rfl) rfl
      simp [absent, Prod.ext_iff, eq_comm]
    · rw [Function.update_of_ne same, front]
      simp [same, Prod.ext_iff]

theorem insert_levels (sideOf : P → Bool) (rungs : List P) (levels : List (P × Bool))
    (distinct : (levels.map Prod.fst ++ rungs).Nodup) :
    rungs.foldl (fun levels price => insert price (sideOf price) levels) levels =
      levels ++ rungs.map fun price => (price, sideOf price) := by
  induction rungs generalizing levels with
  | nil => simp
  | cons price rest ih =>
    have fresh : ∀ level ∈ levels, level.1 ≠ price := fun level member same =>
      (List.nodup_append.mp distinct).2.2 _ (List.mem_map_of_mem member) price (List.mem_cons_self ..) same
    have kept : levels.filter (fun level => level.1 ≠ price) = levels :=
      List.filter_eq_self.mpr fun level member => decide_eq_true (fresh level member)
    rw [List.foldl_cons, insert, kept, ih]
    · simp
    · simpa using distinct

end Levels

section Seeding

variable {P : Type} [LinearOrder P] [Add P] [Sub P] [Div P] [NatCast P] (config : HedgeGridConfig P)
  (mid : P) (live : P → Option Bool)

/-- The first rungs of the ladder. -/
def rungs (n : Nat) : List P := List.iterate (· + config.step) config.lowerPrice n

/-- The ladder has just these rungs. -/
def Ladder (n : Nat) : Prop :=
  (∀ price ∈ rungs config n, price ≤ config.upperPrice) ∧
    ¬ (· + config.step)^[n] config.lowerPrice ≤ config.upperPrice

variable {config} in
theorem Ladder.nodup {n : Nat} (ladder : Ladder config n) : (rungs config n).Nodup :=
  nodup_iterate ladder.1 ladder.2

/-- The side on which a rung rests, or on which it is placed. -/
def sideOf (price : P) : Bool := (live price).getD (price < mid)

/-- The levels that are placed on these rungs. -/
def placedOn (prices : List P) : List (P × Bool) :=
  (prices.filter fun price => (live price).isNone).map fun price => (price, sideOf mid live price)

/-- The seeding loop goes along the ladder to its end or to the first error. -/
theorem seedLevels_spec {fuel : Nat} {answers : Nat → CreateAnswer} {price : P}
    {believed : List (P × Bool)} {result : Except PortError (List (P × Bool))} {placed : List (Request P)}
    (seeded : seedLevels config mid live fuel answers price believed = some (result, placed)) :
    ∃ n, (∀ rung ∈ List.iterate (· + config.step) price n, rung ≤ config.upperPrice) ∧
      placed = (placedOn mid live (List.iterate (· + config.step) price n)).map (legOf config) ∧
      ∀ ladder, result = .ok ladder →
        ¬ (· + config.step)^[n] price ≤ config.upperPrice ∧
        ladder = (List.iterate (· + config.step) price n).foldl
          (fun levels price => insert price (sideOf mid live price) levels) believed := by
  induction fuel generalizing answers price believed placed with
  | zero => cases seeded
  | succ fuel ih =>
    rw [seedLevels] at seeded
    split at seeded
    · rename_i inside
      split at seeded
      · rename_i restingIsBuy rests
        obtain ⟨n, within, same, ends⟩ := ih seeded
        refine ⟨n + 1, ?_, ?_, ?_⟩
        · exact List.forall_mem_cons.mpr ⟨inside, within⟩
        · simp [List.iterate, placedOn, rests, same]
        · simpa [List.iterate, sideOf, rests] using ends
      · rename_i missing
        dsimp only at seeded
        split at seeded
        · cases seeded
          exact ⟨0, by simp [List.iterate], by simp [List.iterate, placedOn], by simp⟩
        · cases seeded
          exact ⟨1, by simpa [List.iterate] using inside,
            by simp [List.iterate, placedOn, missing, sideOf, legOf], by simp⟩
        · obtain ⟨⟨result', tail⟩, later, same⟩ := Option.map_eq_some_iff.mp seeded
          cases same
          obtain ⟨n, within, rfl, ends⟩ := ih later
          refine ⟨n + 1, ?_, ?_, ?_⟩
          · exact List.forall_mem_cons.mpr ⟨inside, within⟩
          · simp [List.iterate, placedOn, missing, sideOf, legOf]
          · simpa [List.iterate, sideOf, missing] using ends
    · rename_i beyond
      cases seeded
      exact ⟨0, by simp [List.iterate], by simp [List.iterate, placedOn], by simp [List.iterate, beyond]⟩

end Seeding

section Ticks

variable {P : Type} [LinearOrder P] [Zero P] [Add P] [Sub P] [Div P] [NatCast P]
  (config : HedgeGridConfig P)

/-- What a cycle can come to. -/
inductive Ticked (poll : Poll P) (book : List (Request P)) (levels : List (P × Bool)) (cycle : Cycle P) :
    Prop where
  | quiet (believed : cycle.believed = levels) (hedged : cycle.hedged = []) (placed : cycle.placed = [])
      (unhedged : ∀ error, cycle.outcome ≠ .hedgeFailed error) (unseeded : cycle.outcome ≠ .seeded)
      (silent : ¬ poll.Hedges config)
      (idle : ∀ mid, cycle.outcome.result = .ok () → poll.mid = .ok mid → 0 < mid → ¬ Quotes config)
  | hedgeFailed (hedges : poll.Hedges config) (done rest : List (P × Bool))
      (found : missing book levels = done ++ rest)
      (covers : rest = [] ↔ Covers poll.hedges (missing book levels)) (error : PortError)
      (outcome : cycle.outcome = .hedgeFailed error) (believed : cycle.believed = [])
      (hedged : cycle.hedged = done.map (hedgeLeg config)) (placed : cycle.placed = [])
  | legFailed (hedges : poll.Hedges config) (covers : Covers poll.hedges (missing book levels)) (mid : P)
      (n : Nat) (error : PortError)
      (inside : ∀ price ∈ rungs config n, price ≤ config.upperPrice)
      (outcome : cycle.outcome = .legFailed error) (believed : cycle.believed = [])
      (hedged : cycle.hedged = (missing book levels).map (hedgeLeg config))
      (placed : cycle.placed = (placedOn mid (live book) (rungs config n)).map (legOf config))
  | seeded (hedges : poll.Hedges config) (covers : Covers poll.hedges (missing book levels)) (mid : P)
      (n : Nat) (ladder : Ladder config n)
      (outcome : cycle.outcome = .seeded)
      (believed : cycle.believed = (rungs config n).map fun price => (price, sideOf mid (live book) price))
      (hedged : cycle.hedged = (missing book levels).map (hedgeLeg config))
      (placed : cycle.placed = (placedOn mid (live book) (rungs config n)).map (legOf config))

theorem tick_cases {fuel : Nat} {poll : Poll P} {book : List (Request P)} {levels : List (P × Bool)}
    {cycle : Cycle P} (ran : tick config fuel poll book levels = some cycle) :
    Ticked config poll book levels cycle := by
  rw [tick] at ran
  split at ran
  · rename_i error unread
    cases ran
    refine .quiet rfl rfl rfl nofun nofun ?_ fun mid ended => by cases ended
    rintro ⟨-, ⟨mid, read, -⟩, -⟩
    cases unread.symm.trans read
  rename_i mid read
  split at ran
  · rename_i nonpositive
    cases ran
    have negative : ∀ other, poll.mid = .ok other → ¬ 0 < other := by
      intro other again
      cases read.symm.trans again
      exact not_lt.mpr nonpositive
    refine .quiet rfl rfl rfl nofun nofun ?_ fun other _ again positive => absurd positive (negative other again)
    rintro ⟨-, ⟨other, again, positive⟩, -⟩
    exact negative other again positive
  rename_i positive
  split at ran
  · rename_i none_asked
    cases ran
    exact .quiet rfl rfl rfl nofun nofun (fun hedges => hedges.quotes.1 none_asked)
      fun _ _ _ _ quotes => quotes.1 none_asked
  rename_i some_asked
  split at ran
  · rename_i flat
    cases ran
    have unquoted : ¬ Quotes config := fun quotes => absurd quotes.2 (not_lt.mpr flat)
    exact .quiet rfl rfl rfl nofun nofun (fun hedges => unquoted hedges.quotes) fun _ _ _ _ => unquoted
  rename_i steep
  split at ran
  · rename_i error unread
    cases ran
    refine .quiet rfl rfl rfl nofun nofun (fun hedges => ?_) fun mid ended => by cases ended
    cases unread.symm.trans hedges.opened
  rename_i opened
  have hedges : poll.Hedges config := ⟨⟨some_asked, not_le.mp steep⟩, ⟨mid, read, not_le.mp positive⟩, opened⟩
  obtain ⟨done, rest, found, hedged, ended, covers⟩ :=
    hedgeLevels_spec config poll.hedges (missing book levels)
  dsimp only at ran
  split at ran
  · cases ran
    exact .hedgeFailed hedges done rest found covers _ rfl rfl hedged rfl
  · rename_i all
    obtain rfl := ended all
    have covered := covers.mp rfl
    rw [List.append_nil] at found
    rw [← found] at hedged
    split at ran
    · cases ran
    · rename_i error placed seeded
      cases ran
      obtain ⟨n, inside, rfl, -⟩ := seedLevels_spec config mid (live book) seeded
      exact .legFailed hedges covered mid n error inside rfl rfl hedged rfl
    · rename_i believed placed seeded
      cases ran
      obtain ⟨n, inside, rfl, ends⟩ := seedLevels_spec config mid (live book) seeded
      obtain ⟨beyond, rfl⟩ := ends believed rfl
      have ladder : Ladder config n := ⟨inside, beyond⟩
      refine .seeded hedges covered mid n ladder rfl ?_ hedged rfl
      exact insert_levels (sideOf mid (live book)) (rungs config n) [] ladder.nodup

end Ticks

section Accounts

variable {P : Type} [Add P] [Sub P] [Div P] [NatCast P]

/-- The books of a run: the levels that rest, that are hedged, that have left the book since the
last cycle, and that nobody will hedge. -/
structure Accounts (config : HedgeGridConfig P) (n : Nat) (world : World P) (sound : Prop)
    (resting : List (P × Bool)) (covered gone lost : Multiset (P × Bool)) : Prop where
  book : world.book = resting.map (legOf config)
  departed : (world.departed : Multiset (Request P)) = (covered + gone + lost).map (legOf config)
  hedges : (world.hedges : Multiset (Request P)) = covered.map (hedgeLeg config)
  believed : world.believed = [] ∧ gone = 0 ∨ (world.believed : Multiset (P × Bool)) = ↑resting + gone
  onLadder : ∀ level ∈ resting, level.1 ∈ rungs config n
  distinct : ((↑resting + gone : Multiset (P × Bool)).map Prod.fst).Nodup
  sound : sound ↔ lost = 0

variable {config : HedgeGridConfig P} {n : Nat} {world : World P} {sound : Prop}
  {resting : List (P × Bool)} {covered gone lost : Multiset (P × Bool)}

theorem Accounts.new : Accounts config n .new True [] 0 0 0 where
  book := rfl
  departed := rfl
  hedges := rfl
  believed := .inl ⟨rfl, rfl⟩
  onLadder := by simp
  distinct := by simp
  sound := by simp

namespace Accounts

variable (accounts : Accounts config n world sound resting covered gone lost)

include accounts

theorem resting_distinct : (resting.map Prod.fst).Nodup := by
  have distinct := accounts.distinct
  rw [Multiset.map_add, Multiset.nodup_add] at distinct
  exact distinct.1

variable [LinearOrder P]

theorem live_iff (price : P) (isBuy : Bool) :
    live world.book price = some isBuy ↔ (price, isBuy) ∈ resting := by
  rw [accounts.book]
  exact live_eq_some_iff config accounts.resting_distinct price isBuy

theorem live_isNone_iff (price : P) : (live world.book price).isNone ↔ price ∉ resting.map Prod.fst := by
  rw [Option.isNone_iff_eq_none, Option.eq_none_iff_forall_ne_some]
  constructor
  · intro absent rests
    obtain ⟨level, member, rfl⟩ := List.mem_map.mp rests
    exact absent level.2 ((accounts.live_iff level.1 level.2).mpr member)
  · intro absent isBuy rests
    exact absent (List.mem_map_of_mem ((accounts.live_iff price isBuy).mp rests))

/-- What a cycle misses on the book is what has left it since the last one. -/
theorem missing_eq {levels : List (P × Bool)} (iterated : levels.Perm world.believed) :
    (missing world.book levels : Multiset (P × Bool)) = gone := by
  rcases accounts.believed with ⟨nothing, none_gone⟩ | all
  · rw [nothing] at iterated
    rw [iterated.eq_nil, none_gone]
    rfl
  have levels_eq : (levels : Multiset (P × Bool)) = ↑resting + gone :=
    (Multiset.coe_eq_coe.mpr iterated).trans all
  have apart := accounts.distinct
  rw [Multiset.map_add, Multiset.nodup_add] at apart
  have here : (resting : Multiset (P × Bool)).filter
      (fun level => (live world.book level.1).isNone = true) = 0 := by
    refine Multiset.filter_eq_nil.mpr fun level member absent => ?_
    exact (accounts.live_isNone_iff level.1).mp absent (List.mem_map_of_mem member)
  have away : gone.filter (fun level => (live world.book level.1).isNone = true) = gone := by
    refine Multiset.filter_eq_self.mpr fun level member => ?_
    refine (accounts.live_isNone_iff level.1).mpr fun rests => ?_
    exact Multiset.disjoint_left.mp apart.2.2 rests (Multiset.mem_map_of_mem _ member)
  have found : (missing world.book levels : Multiset (P × Bool)) =
      (levels : Multiset (P × Bool)).filter fun level => (live world.book level.1).isNone = true := by
    rw [Multiset.filter_coe, missing]
    simp only [Bool.decide_eq_true]
  rw [found, levels_eq, Multiset.filter_add, here, away, Multiset.zero_add]

/-- The levels that are placed on rungs of the ladder stand beside those that rest. -/
theorem placed_distinct (mid : P) {prices : List P} (nodup : prices.Nodup) :
    ((resting ++ placedOn mid (live world.book) prices).map Prod.fst).Nodup := by
  have placed : (placedOn mid (live world.book) prices).map Prod.fst =
      prices.filter fun price => (live world.book price).isNone := by
    simp [placedOn, Function.comp_def]
  rw [List.map_append, placed, List.nodup_append]
  refine ⟨accounts.resting_distinct, nodup.filter _, fun price rests other absent same => ?_⟩
  subst same
  exact (accounts.live_isNone_iff price).mp (List.mem_filter.mp absent).2 rests

theorem placed_onLadder (mid : P) {prices : List P} (part : prices <+: rungs config n) :
    ∀ level ∈ resting ++ placedOn mid (live world.book) prices, level.1 ∈ rungs config n := by
  intro level member
  rcases List.mem_append.mp member with rests | placed
  · exact accounts.onLadder level rests
  · obtain ⟨price, found, rfl⟩ := List.mem_map.mp placed
    exact part.subset (List.mem_filter.mp found).1

/-- With all the rungs seeded, the levels that rest are the ladder. -/
theorem placed_perm (mid : P) {prices : List P} (nodup : prices.Nodup)
    (onLadder : ∀ level ∈ resting, level.1 ∈ prices) :
    (prices.map fun price => (price, sideOf mid (live world.book) price)).Perm
      (resting ++ placedOn mid (live world.book) prices) := by
  have ladder : (prices.map fun price => (price, sideOf mid (live world.book) price)).Nodup :=
    nodup.map fun first second same => (Prod.mk.inj same).1
  have levels := (accounts.placed_distinct mid nodup).of_map
  refine (List.perm_ext_iff_of_nodup ladder levels).mpr fun level => ?_
  rw [List.mem_append, List.mem_map]
  constructor
  · rintro ⟨price, member, rfl⟩
    cases side : live world.book price with
    | some isBuy =>
      left
      rw [sideOf, side]
      exact (accounts.live_iff price isBuy).mp side
    | none =>
      right
      exact List.mem_map.mpr ⟨price, List.mem_filter.mpr ⟨member, by rw [side]; rfl⟩, rfl⟩
  · rintro (rests | placed)
    · have side := (accounts.live_iff level.1 level.2).mpr rests
      exact ⟨level.1, onLadder level rests, by rw [sideOf, side]; rfl⟩
    · obtain ⟨price, member, rfl⟩ := List.mem_map.mp placed
      exact ⟨price, (List.mem_filter.mp member).1, rfl⟩

omit [LinearOrder P] in
theorem departs {front back : List (Request P)} {order : Request P}
    (rests : world.book = front ++ order :: back) :
    ∃ resting' gone' lost', Accounts config n (world.without front order back)
      (sound ∧ world.Believes order) resting' covered gone' lost' := by
  have split := accounts.book.symm.trans rests
  obtain ⟨before, behind, rfl, rfl, others⟩ := List.map_eq_append_iff.mp split
  obtain ⟨level, after, rfl, rfl, rfl⟩ := List.map_eq_cons_iff.mp others
  have moved : (↑(before ++ after) : Multiset (P × Bool)) + level ::ₘ gone =
      ↑(before ++ level :: after) + gone := by
    rw [Multiset.coe_eq_coe.mpr List.perm_middle, ← Multiset.cons_coe, Multiset.add_cons,
      Multiset.cons_add]
  have later : ((world.without (before.map (legOf config)) (legOf config level)
      (after.map (legOf config))).departed : Multiset (Request P)) =
        legOf config level ::ₘ (covered + gone + lost).map (legOf config) := by
    rw [← accounts.departed]
    exact Multiset.coe_eq_coe.mpr (List.perm_append_singleton _ _)
  have onLadder : ∀ other ∈ before ++ after, other.1 ∈ rungs config n := fun other member =>
    accounts.onLadder other (by simp only [List.mem_append, List.mem_cons] at member ⊢; tauto)
  have distinct := accounts.distinct
  rw [← moved] at distinct
  rcases accounts.believed with ⟨nothing, rfl⟩ | all
  · -- The strategy does not know of the order, and will not miss it.
    refine ⟨before ++ after, 0, level ::ₘ lost, (List.map_append ..).symm, ?_, accounts.hedges,
      .inl ⟨nothing, rfl⟩, onLadder, ?_, ?_⟩
    · rw [later]
      simp
    · rw [Multiset.add_cons, Multiset.map_cons] at distinct
      exact (Multiset.nodup_cons.mp distinct).2
    · simp [World.Believes, nothing]
  · refine ⟨before ++ after, level ::ₘ gone, lost, (List.map_append ..).symm, ?_, accounts.hedges,
      .inr (all.trans moved.symm), onLadder, distinct, ?_⟩
    · rw [later]
      simp
    · have believes : world.Believes (legOf config level) := by
        refine ⟨level.1, level.2, rfl, ?_⟩
        rw [← Multiset.mem_coe, all]
        simp
      simp only [believes, and_true]
      exact accounts.sound

omit [LinearOrder P] in
theorem judged {other : Prop} (same : other ↔ sound) :
    Accounts config n world other resting covered gone lost :=
  { accounts with sound := same.trans accounts.sound }

omit [LinearOrder P] in
/-- A cycle that submits nothing. -/
theorem quiet {cycle : Cycle P} (believed : cycle.believed.Perm world.believed) (hedged : cycle.hedged = [])
    (placed : cycle.placed = []) :
    Accounts config n (world.after cycle) sound resting covered gone lost where
  book := by simp [World.after, placed, accounts.book]
  departed := accounts.departed
  hedges := by simp [World.after, hedged, accounts.hedges]
  believed := by
    rcases accounts.believed with ⟨nothing, none_gone⟩ | all
    · rw [nothing] at believed
      exact .inl ⟨believed.eq_nil, none_gone⟩
    · exact .inr ((Multiset.coe_eq_coe.mpr believed).trans all)
  onLadder := accounts.onLadder
  distinct := accounts.distinct
  sound := accounts.sound

omit [LinearOrder P] in
/-- A cycle that hedges some of the levels that it misses, and forgets the others. -/
theorem cut {cycle : Cycle P} {done rest : List (P × Bool)} (left_book : (↑done + ↑rest : Multiset _) = gone)
    (believed : cycle.believed = []) (hedged : cycle.hedged = done.map (hedgeLeg config))
    (placed : cycle.placed = []) :
    Accounts config n (world.after cycle) (sound ∧ rest = []) resting (covered + done) 0 (lost + rest) where
  book := by simp [World.after, placed, accounts.book]
  departed := by
    rw [World.after, accounts.departed, ← left_book]
    congr 1
    abel
  hedges := by simp [World.after, hedged, ← Multiset.coe_add, accounts.hedges]
  believed := .inl ⟨believed, rfl⟩
  onLadder := accounts.onLadder
  distinct := by
    rw [Multiset.add_zero, Multiset.map_coe]
    exact accounts.resting_distinct
  sound := by
    rw [accounts.sound, ← Multiset.coe_eq_zero]
    simp only [← Multiset.card_eq_zero, Multiset.card_add, Nat.add_eq_zero_iff]

/-- A cycle that hedges what it misses, and seeds some rungs of the ladder. -/
theorem seeds (ladder : Ladder config n) (mid : P) {prices : List P} (part : prices <+: rungs config n)
    {cycle : Cycle P} {missed : List (P × Bool)} (left_book : (missed : Multiset (P × Bool)) = gone)
    (hedged : cycle.hedged = missed.map (hedgeLeg config))
    (placed : cycle.placed = (placedOn mid (live world.book) prices).map (legOf config))
    (believed : cycle.believed = [] ∨
      cycle.believed.Perm (resting ++ placedOn mid (live world.book) prices)) :
    Accounts config n (world.after cycle) sound (resting ++ placedOn mid (live world.book) prices)
      (covered + gone) 0 lost where
  book := by simp [World.after, placed, accounts.book]
  departed := by simp [World.after, accounts.departed]
  hedges := by simp [World.after, hedged, ← Multiset.coe_add, ← left_book, accounts.hedges]
  believed := by
    rw [Multiset.add_zero]
    exact believed.imp (fun nothing => ⟨nothing, rfl⟩) fun all => Multiset.coe_eq_coe.mpr all
  onLadder := accounts.placed_onLadder mid part
  distinct := by
    rw [Multiset.add_zero]
    exact accounts.placed_distinct mid (ladder.nodup.sublist part.sublist)
  sound := accounts.sound

variable [Zero P]

theorem polls (ladder : Ladder config n) {fuel : Nat} {poll : Poll P} {levels : List (P × Bool)}
    {cycle : Cycle P} (iterated : levels.Perm world.believed)
    (ran : tick config fuel poll world.book levels = some cycle) :
    ∃ resting' covered' gone' lost', Accounts config n (world.after cycle)
      (sound ∧ (poll.Hedges config → Covers poll.hedges (missing world.book levels)))
      resting' covered' gone' lost' ∧
      (cycle.outcome = .seeded → gone' = 0) := by
  have left_book := accounts.missing_eq iterated
  cases tick_cases config ran with
  | quiet believed hedged placed unhedged unseeded silent idle =>
    have after := accounts.quiet (believed ▸ iterated) hedged placed
    exact ⟨_, _, _, _, after.judged (by simp [silent]), fun ended => absurd ended unseeded⟩
  | hedgeFailed hedges done rest found covers error outcome believed hedged placed =>
    rw [found, ← Multiset.coe_add] at left_book
    have after := accounts.cut left_book believed hedged placed
    refine ⟨_, _, _, _, after.judged (and_congr_right fun _ => ?_), fun _ => rfl⟩
    exact ⟨fun all => covers.mpr (all hedges), fun none_left _ => covers.mp none_left⟩
  | legFailed hedges covers mid m error inside outcome believed hedged placed =>
    have part : rungs config m <+: rungs config n := iterate_prefix inside ladder.2
    have after := accounts.seeds ladder mid part left_book hedged placed (.inl believed)
    exact ⟨_, _, _, _, after.judged (by simp [covers]), fun _ => rfl⟩
  | seeded hedges covers mid m own outcome believed hedged placed =>
    have part : rungs config m <+: rungs config n := iterate_prefix own.1 ladder.2
    have whole : rungs config n <+: rungs config m := iterate_prefix ladder.1 own.2
    have all := accounts.placed_perm mid own.nodup fun level member =>
      whole.subset (accounts.onLadder level member)
    have after := accounts.seeds ladder mid part left_book hedged placed (.inr (believed ▸ all))
    exact ⟨_, _, _, _, after.judged (by simp [covers]), fun _ => rfl⟩

end Accounts

variable [LinearOrder P] [Zero P]

theorem Reached.accounts (ladder : Ladder config n) (reached : Reached config world sound) :
    ∃ resting covered gone lost, Accounts config n world sound resting covered gone lost := by
  induction reached with
  | new => exact ⟨[], 0, 0, 0, .new⟩
  | departs before rests ih =>
    obtain ⟨resting, covered, gone, lost, accounts⟩ := ih
    obtain ⟨resting, gone, lost, accounts⟩ := accounts.departs rests
    exact ⟨resting, covered, gone, lost, accounts⟩
  | polls before iterated ran ih =>
    obtain ⟨resting, covered, gone, lost, accounts⟩ := ih
    obtain ⟨resting, covered, gone, lost, accounts, -⟩ := accounts.polls ladder iterated ran
    exact ⟨resting, covered, gone, lost, accounts⟩

/-- A grid with no ladder to quote has no orders. -/
theorem Reached.unquoted (unquoted : ¬ Quotes config) (reached : Reached config world sound) :
    world = .new ∧ sound := by
  induction reached with
  | new => exact ⟨rfl, trivial⟩
  | departs before rests ih =>
    rw [ih.1] at rests
    cases List.append_eq_nil_iff.mp rests.symm with
    | intro _ impossible => cases impossible
  | polls before iterated ran ih =>
    obtain ⟨rfl, sound⟩ := ih
    obtain rfl := iterated.eq_nil
    cases tick_cases config ran with
    | quiet believed hedged placed unhedged unseeded silent idle =>
      exact ⟨by simp [World.after, World.new, believed, hedged, placed], sound,
        fun hedges => absurd hedges.quotes unquoted⟩
    | hedgeFailed hedges => exact absurd hedges.quotes unquoted
    | legFailed hedges => exact absurd hedges.quotes unquoted
    | seeded hedges => exact absurd hedges.quotes unquoted

end Accounts

/-- Five levels between 90 and 110. -/
def grid : HedgeGridConfig Int where
  primary := ⟨"primary", ""⟩
  hedge := ⟨"hedge", ""⟩
  symbol := "BTC/USDT"
  lowerPrice := 90
  upperPrice := 110
  numLevels := 4
  qtyPerLevel := 1

/-- A cycle at a mid of 100 in which the hedges and the legs from these on are refused. -/
def pollAt (hedges legs : Nat) : Poll Int where
  ticker := .ok (some (.ok 100))
  openOrders := none
  hedges n := if n < hedges then .accepted "1" else .refused (.transport "refused")
  legs n := if n < legs then .accepted "1" else .refused (.transport "refused")

/-- The ladder around a mid of 100. -/
def ladderAt : List (Int × Bool) := [(90, true), (95, true), (100, false), (105, false), (110, false)]

/-- The grid once its ladder is seeded and the leg at 95 has left the book. -/
def filled : World Int :=
  (World.new.after ⟨.seeded, ladderAt, [], ladderAt.map (legOf grid)⟩).without
    [legOf grid (90, true)] (legOf grid (95, true)) ([(100, false), (105, false), (110, false)].map (legOf grid))

/-- The grid once its ladder is seeded, the leg at 95 has left the book and its hedge is refused. -/
def refused : World Int := filled.after ⟨.hedgeFailed (.transport "refused"), [], [], []⟩

end LongTrader.Strategy.HedgeGrid
