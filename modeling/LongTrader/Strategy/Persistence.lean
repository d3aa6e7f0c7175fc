import LongTrader.Runs
import LongTrader.Strategy.OneLadder
import LongTrader.Strategy.StateFile
import Std.Data.String.ToInt

/-! When the state file of the simple grid holds its ladder. It is written when the ladder is seeded
and when it is cleared, but not when a level is flipped. -/

namespace LongTrader.Strategy.SimpleGrid

/-- How many of the placements from `count` on fail. -/
def failures (creates : Nat → CreateAnswer) (count due : Nat) : Nat :=
  (List.range' count due).countP fun n => !(creates n).isOk

section Failures

variable {P : Type}

theorem failures_succ (creates : Nat → CreateAnswer) (count due : Nat) :
    failures creates count (due + 1) =
      failures creates (count + 1) due + if (creates count).isOk then 0 else 1 := by
  rw [failures, List.range'_succ, List.countP_cons]
  cases (creates count).isOk with
  | false => rfl
  | true => rfl

theorem placeLevelOrder_errors (answer : CreateAnswer) (level : GridLevel P)
    (rest : Placements P) :
    (placeLevelOrder answer level rest).errors = rest.errors + if answer.isOk then 0 else 1 := by
  cases answer with
  | accepted orderId => rfl
  | refused error => rfl
  | lost error => rfl

/-- A placement changes the order id of its level at most. -/
theorem placeLevelOrder_levels (answer : CreateAnswer) (level : GridLevel P)
    (rest : Placements P) :
    ∃ orderId, (placeLevelOrder answer level rest).levels = { level with orderId } :: rest.levels := by
  cases answer with
  | accepted orderId => exact ⟨orderId, rfl⟩
  | refused error => exact ⟨level.orderId, rfl⟩
  | lost error => exact ⟨level.orderId, rfl⟩

theorem placeLevels_errors (creates : Nat → CreateAnswer) (count : Nat)
    (levels : List (GridLevel P)) :
    (placeLevels creates count levels).errors = failures creates count levels.length := by
  induction levels generalizing count with
  | nil => rfl
  | cons level rest ih => rw [placeLevels, placeLevelOrder_errors, ih, List.length_cons, failures_succ]

end Failures

variable {P : Type} [LinearOrder P] [Zero P] [Add P] [Sub P] [Div P] [NatCast P]

section Cycles

variable (config : SimpleGridConfig P) (poll : Poll P) (alive : GridLevel P → Bool)

theorem flipLevels_errors (count : Nat) (levels : List (GridLevel P)) :
    (flipLevels config poll alive count levels).errors =
      failures poll.creates count (levels.countP (isGone config alive)) := by
  induction levels generalizing count with
  | nil => rfl
  | cons level rest ih =>
    rw [flipLevels_eq, List.countP_cons]
    cases isGone config alive level with
    | false => exact ih count
    | true => rw [if_pos rfl, placeLevelOrder_errors, ih, if_pos rfl, failures_succ]

omit [LinearOrder P] in
theorem flip_side (ulid : String) (level : GridLevel P) : (flip config ulid level).side ≠ level.side := by
  obtain ⟨price, side, clientOrderId, orderId⟩ := level
  cases side <;> nofun

/-- A cycle leaves the ladder as it is if and only if it flips no level. -/
theorem flipLevels_levels_eq_iff (count : Nat) (levels : List (GridLevel P)) :
    (flipLevels config poll alive count levels).levels = levels ↔
      ∀ level ∈ levels, isGone config alive level = false := by
  induction levels generalizing count with
  | nil => simp [flipLevels]
  | cons level rest ih =>
    rw [flipLevels_eq, List.forall_mem_cons]
    cases gone : isGone config alive level with
    | false =>
      simp only [Bool.false_eq_true, if_false, List.cons.injEq, true_and]
      exact ih count
    | true =>
      simp only [if_true, Bool.true_eq_false, false_and, iff_false]
      obtain ⟨orderId, placed⟩ := placeLevelOrder_levels (poll.creates count)
        (flip config (poll.ulids count) level) (flipLevels config poll alive (count + 1) rest)
      rw [placed]
      intro same
      have side := congrArg GridLevel.side (List.cons.inj same).1
      exact flip_side config (poll.ulids count) level side

end Cycles

section Written

variable {config : SimpleGridConfig P} {poll : Poll P} {alive : GridLevel P → Bool}

omit [LinearOrder P] [Zero P] [Add P] [Sub P] [Div P] [NatCast P] in
theorem coid_ne_empty (ulid : String) : coid ulid ≠ "" := by
  rw [coid, ne_eq, String.append_eq_empty_iff]
  exact fun both => absurd both.1 (by decide)

omit [LinearOrder P] in
theorem flip_written (ulid : String) (level : GridLevel P) : (flip config ulid level).Written := by
  refine ⟨?_, coid_ne_empty ulid⟩
  unfold flip
  split
  · exact .inl rfl
  · exact .inr rfl

theorem levelsFrom_written (current : P) (ulids : Nat → String) (room count : Nat) (price : P) :
    ∀ level ∈ levelsFrom config current ulids room count price, level.Written := by
  induction room generalizing count price with
  | zero => simp [levelsFrom]
  | succ room ih =>
    rw [levelsFrom]
    split
    · refine List.forall_mem_cons.mpr ⟨⟨?_, coid_ne_empty _⟩, ih (count + 1) _⟩
      unfold sideFor
      split
      · exact .inl rfl
      · exact .inr rfl
    · simp

theorem calculateLevels_written (config : SimpleGridConfig P) (current : P) (ulids : Nat → String) :
    ∀ level ∈ calculateLevels config current ulids, level.Written := by
  rw [calculateLevels]
  split
  · simp
  · exact levelsFrom_written current ulids _ _ _

omit [LinearOrder P] [Zero P] [Add P] [Sub P] [Div P] [NatCast P] in
theorem placeLevelOrder_written (answer : CreateAnswer) {level : GridLevel P}
    {rest : Placements P} (written : level.Written) (others : ∀ other ∈ rest.levels, other.Written) :
    ∀ other ∈ (placeLevelOrder answer level rest).levels, other.Written := by
  obtain ⟨orderId, placed⟩ := placeLevelOrder_levels answer level rest
  rw [placed]
  exact List.forall_mem_cons.mpr ⟨⟨written.side, written.clientOrderId⟩, others⟩

omit [LinearOrder P] [Zero P] [Add P] [Sub P] [Div P] [NatCast P] in
theorem placeLevels_written (creates : Nat → CreateAnswer) (count : Nat)
    {levels : List (GridLevel P)} (written : ∀ level ∈ levels, level.Written) :
    ∀ level ∈ (placeLevels creates count levels).levels, level.Written := by
  induction levels generalizing count with
  | nil => exact written
  | cons level rest ih =>
    obtain ⟨first, others⟩ := List.forall_mem_cons.mp written
    exact placeLevelOrder_written _ first (ih (count + 1) others)

theorem flipLevels_written (count : Nat) {levels : List (GridLevel P)}
    (written : ∀ level ∈ levels, level.Written) :
    ∀ level ∈ (flipLevels config poll alive count levels).levels, level.Written := by
  induction levels generalizing count with
  | nil => exact written
  | cons level rest ih =>
    obtain ⟨first, others⟩ := List.forall_mem_cons.mp written
    rw [flipLevels_eq]
    split
    · exact placeLevelOrder_written _ (flip_written _ _) (ih (count + 1) others)
    · exact List.forall_mem_cons.mpr ⟨first, ih count others⟩

end Written

section Worlds

variable {world : World P} {poll : Poll P}

/-- Every level of the ladder and of the files has a property. -/
structure World.Each (holds : GridLevel P → Prop) (world : World P) : Prop where
  levels : ∀ level ∈ world.levels, holds level
  files : ∀ path levels, world.files path = some levels → ∀ level ∈ levels, holds level

section Each

variable {holds : GridLevel P → Prop}

omit [LinearOrder P] [Zero P] [Add P] [Sub P] [Div P] [NatCast P] in
theorem persistLevels_each {config : SimpleGridConfig P} {levels : List (GridLevel P)} {files : Files P}
    (each : ∀ level ∈ levels, holds level)
    (saved : ∀ path levels, files path = some levels → ∀ level ∈ levels, holds level) :
    ∀ path ladder, persistLevels config levels files path = some ladder → ∀ level ∈ ladder, holds level := by
  intro path ladder
  unfold persistLevels
  cases config.stateFile with
  | none => exact saved path ladder
  | some target =>
    by_cases same : path = target
    · subst same
      rintro found
      obtain rfl : levels = ladder := by simpa using found
      exact each
    · simpa [same] using saved path ladder

omit [Zero P] [Add P] [Sub P] [Div P] [NatCast P] in
theorem World.Each.restored (each : world.Each holds) :
    ∀ level ∈ restoreLevels world.config world.files, holds level := by
  unfold restoreLevels
  split
  · simp
  · split
    · simp
    · rename_i saved
      exact fun level member => each.files _ _ saved level (List.mem_filter.mp member).1

/-- An event keeps a property of all levels that the placements have which do not trip the kill
switch. -/
theorem World.Each.step (each : world.Each holds) {event : Event P}
    (placed : ∀ poll placements, event = .rebalances poll →
      (world.cycle poll).placements = some placements → ¬ maxConsecutiveErrors ≤ placements.errors →
        ∀ level ∈ placements.levels, holds level) : (world.step event).Each holds := by
  have nothing : ∀ level ∈ ([] : List (GridLevel P)), holds level := by simp
  cases event with
  | leaves index => exact ⟨each.levels, each.files⟩
  | restarts config => exact ⟨nothing, each.files⟩
  | rebalances poll =>
    have cleared := @persistLevels_each P holds world.config [] world.files nothing each.files
    rw [World.step, World.rebalance]
    cases cycle : world.cycle poll with
    | fails => exact each
    | resumes levels =>
      rcases world.cycle_cases poll with fails | ⟨_, -, ⟨-, -, resumes⟩ | ⟨-, -, seeds⟩ | ⟨-, flips⟩⟩
      · rw [fails] at cycle
        cases cycle
      · obtain rfl := Cycle.resumes.inj (cycle.symm.trans resumes)
        exact ⟨each.restored, each.files⟩
      · rw [seeds] at cycle
        cases cycle
      · rw [flips] at cycle
        cases cycle
    | seeds placements =>
      dsimp only
      rw [World.seed]
      split
      · exact ⟨nothing, cleared⟩
      · rename_i quiet
        have every := placed poll placements rfl (by rw [cycle]; rfl) quiet
        exact ⟨every, persistLevels_each every each.files⟩
    | flips placements =>
      dsimp only
      rw [World.update]
      split
      · exact ⟨nothing, cleared⟩
      · rename_i quiet
        exact ⟨placed poll placements rfl (by rw [cycle]; rfl) quiet, each.files⟩

end Each

/-- Every level of the ladder and of the files is one that the grid has made. -/
def World.Written (world : World P) : Prop := world.Each GridLevel.Written

theorem World.Written.step (written : world.Written) (event : Event P) : (world.step event).Written := by
  refine World.Each.step written fun poll placements _ places _ => ?_
  rcases world.cycle_cases poll with fails | ⟨current, -, ⟨-, -, resumes⟩ | ⟨-, -, seeds⟩ | ⟨-, flips⟩⟩
  · rw [fails] at places
    cases places
  · rw [resumes] at places
    cases places
  · rw [seeds] at places
    obtain rfl := Option.some.inj places
    exact placeLevels_written poll.creates 0 (calculateLevels_written world.config current poll.ulids)
  · rw [flips] at places
    obtain rfl := Option.some.inj places
    exact flipLevels_written 0 written.levels

theorem World.Written.rebalance (written : world.Written) (poll : Poll P) :
    (world.rebalance poll).Written :=
  written.step (.rebalances poll)

/-- `rebalance` returns `Ok`. -/
def World.succeeds (world : World P) (poll : Poll P) : Bool :=
  match world.cycle poll with
  | .fails => false
  | .resumes _ | .seeds _ | .flips _ => true

/-- How many orders a cycle places: those of a fresh ladder, or one for each level that is gone. -/
def World.due (world : World P) (poll : Poll P) (current : P) : Nat :=
  if world.levels = [] then (calculateLevels world.config current poll.ulids).length
  else world.levels.countP (isGone world.config (isAlive poll.shown))

/-- What is saved of a cycle is all that it does: the kill switch clears the ladder, or no level is
flipped and there is a file, if there is a ladder. -/
def World.Saved (world : World P) (poll : Poll P) : Prop :=
  ∀ current, currentPrice poll = some current →
    maxConsecutiveErrors ≤ failures poll.creates 0 (world.due poll current) ∨
      if world.config.stateFile.isSome then
        ∀ level ∈ world.levels, isGone world.config (isAlive poll.shown) level = false
      else world.levels = [] ∧ calculateLevels world.config current poll.ulids = []

/-- After a cycle that returns `Ok` the state file restores the ladder of the process. -/
def World.Persists (text : PriceText P) (world : World P) : Event P → Prop
  | .rebalances poll => world.succeeds poll = true → ∀ ulids,
      restoreDocument text (world.rebalance poll).config
        (documentsOf text (world.rebalance poll).files) ulids = .ok (world.rebalance poll).levels
  | .leaves _ | .restarts _ => True

/-- A cycle that returns `Ok` does nothing that is not saved. -/
def World.Saves (world : World P) : Event P → Prop
  | .rebalances poll => world.succeeds poll = true → world.Saved poll
  | .leaves _ | .restarts _ => True

/-- A ladder that is tracked is the one that the files restore. -/
def World.Settled (world : World P) : Prop :=
  world.levels ≠ [] → restoreLevels world.config world.files = world.levels

omit [Zero P] [Add P] [Sub P] [Div P] [NatCast P] in
theorem restoreLevels_persisted {config : SimpleGridConfig P} {levels : List (GridLevel P)}
    {files : Files P} (inside : ∀ price ∈ levels.map GridLevel.price, config.inBand price = true) :
    restoreLevels config (persistLevels config levels files) =
      if config.stateFile.isSome then levels else [] := by
  unfold restoreLevels persistLevels
  cases config.stateFile with
  | none => rfl
  | some path =>
    simp only [Function.update_self, Option.isSome_some, if_true]
    exact List.filter_eq_self.mpr fun level member => inside _ (List.mem_map_of_mem member)

/-- What a cycle with a new ladder saves. -/
theorem World.seed_restores (grows : ∀ price step : P, 0 < step → price ≤ price + step) {current : P}
    (priced : currentPrice poll = some current) (untracked : world.levels = []) :
    let placements := placeLevels poll.creates 0 (calculateLevels world.config current poll.ulids)
    restoreLevels (world.seed poll placements).config (world.seed poll placements).files =
      (world.seed poll placements).levels ↔ world.Saved poll := by
  intro placements
  have errors : placements.errors = failures poll.creates 0 (world.due poll current) := by
    rw [placeLevels_errors, World.due, if_pos untracked]
  have saved : world.Saved poll ↔ maxConsecutiveErrors ≤ placements.errors ∨
      (world.config.stateFile.isSome = false → calculateLevels world.config current poll.ulids = []) := by
    simp only [World.Saved, priced, Option.some.injEq, forall_eq', ← errors]
    cases world.config.stateFile with
    | none => simp [untracked]
    | some path => simp [untracked]
  rw [saved, World.seed]
  split
  · rename_i tripped
    exact iff_of_true (restoreLevels_persisted_nil world.config world.files) (.inl tripped)
  · rename_i quiet
    have inside : ∀ price ∈ placements.levels.map GridLevel.price, world.config.inBand price = true := by
      rw [placeLevels_prices]
      exact calculateLevels_inBand world.config current poll.ulids grows
    have size : placements.levels.length = (calculateLevels world.config current poll.ulids).length := by
      have prices := congrArg List.length (@placeLevels_prices P poll.creates 0
        (calculateLevels world.config current poll.ulids))
      rwa [List.length_map, List.length_map] at prices
    dsimp only
    rw [restoreLevels_persisted inside]
    cases world.config.stateFile with
    | none =>
      have empty : placements.levels = [] ↔ calculateLevels world.config current poll.ulids = [] := by
        rw [← List.length_eq_zero_iff, size, List.length_eq_zero_iff]
      rw [or_iff_right quiet, ← empty]
      simp only [Option.isSome_none, Bool.false_eq_true, if_false, forall_const]
      exact eq_comm
    | some path => simp

/-- What a cycle with a ladder leaves of what is saved. -/
theorem World.update_restores {current : P} (priced : currentPrice poll = some current)
    (settled : world.Settled) (tracked : world.levels ≠ []) :
    let placements := flipLevels world.config poll (isAlive poll.shown) 0 world.levels
    restoreLevels (world.update poll placements).config (world.update poll placements).files =
      (world.update poll placements).levels ↔ world.Saved poll := by
  intro placements
  have errors : placements.errors = failures poll.creates 0 (world.due poll current) := by
    rw [flipLevels_errors, World.due, if_neg tracked]
  have configured : world.config.stateFile.isSome = true := by
    by_contra missing
    have none_named : world.config.stateFile = none := by simpa using missing
    have restored := settled tracked
    rw [restoreLevels, none_named] at restored
    exact tracked restored.symm
  simp only [World.Saved, priced, Option.some.injEq, forall_eq', ← errors, configured, if_true]
  rw [World.update]
  split
  · rename_i tripped
    exact iff_of_true (restoreLevels_persisted_nil world.config world.files) (.inl tripped)
  · rename_i quiet
    dsimp only
    rw [settled tracked, eq_comm, flipLevels_levels_eq_iff, or_iff_right quiet]

theorem World.restores_iff (grows : ∀ price step : P, 0 < step → price ≤ price + step)
    (settled : world.Settled) (succeeds : world.succeeds poll = true) :
    restoreLevels (world.rebalance poll).config (world.rebalance poll).files =
      (world.rebalance poll).levels ↔ world.Saved poll := by
  rw [World.rebalance]
  rcases world.cycle_cases poll with fails | ⟨current, priced, cycle⟩
  · rw [World.succeeds, fails] at succeeds
    cases succeeds
  rcases cycle with ⟨untracked, some_saved, resumes⟩ | ⟨untracked, -, seeds⟩ | ⟨tracked, flips⟩
  · rw [resumes]
    refine iff_of_true rfl fun current priced => .inr ?_
    have configured : world.config.stateFile.isSome = true := by
      by_contra missing
      have none_named : world.config.stateFile = none := by simpa using missing
      exact some_saved (by rw [restoreLevels, none_named])
    simp [configured, untracked]
  · rw [seeds]
    exact World.seed_restores grows priced untracked
  · rw [flips]
    exact World.update_restores priced settled tracked

theorem World.Settled.step (grows : ∀ price step : P, 0 < step → price ≤ price + step)
    (settled : world.Settled) {event : Event P} (saves : world.Saves event) : (world.step event).Settled := by
  cases event with
  | leaves index => exact settled
  | restarts config => exact fun tracked => absurd rfl tracked
  | rebalances poll =>
    cases succeeded : world.succeeds poll with
    | false =>
      have fails : world.cycle poll = .fails := by
        cases cycle : world.cycle poll with
        | fails => rfl
        | resumes levels => simp [World.succeeds, cycle] at succeeded
        | seeds placements => simp [World.succeeds, cycle] at succeeded
        | flips placements => simp [World.succeeds, cycle] at succeeded
      rw [World.step, World.rebalance, fails]
      exact settled
    | true => exact fun _ => (World.restores_iff grows settled succeeded).mpr (saves succeeded)

/-- A grid that is started again takes up the ladder that its file restores. -/
theorem World.restart_resumes (restores : restoreLevels world.config world.files = world.levels)
    (tracked : world.levels ≠ []) {current : P} (priced : currentPrice poll = some current)
    (readable : poll.stateReadable = true) :
    ((world.step (.restarts world.config)).rebalance poll).levels = world.levels := by
  have cycle : (world.step (.restarts world.config)).cycle poll = .resumes world.levels := by
    simp [World.cycle, World.step, priced, readable, restores, tracked]
  rw [World.rebalance, cycle]

/-- In a run of the grid, the state file restores the ladder after every cycle that returns `Ok` if
and only if no cycle flips a level, but for one that trips the kill switch, and there is a file. -/
theorem restored_iff_saved {text : PriceText P}
    (reads : ∀ price, text.parse (text.render price) = .ok price)
    (grows : ∀ price step : P, 0 < step → price ≤ price + step)
    (config : SimpleGridConfig P) (events : List (Event P)) :
    Runs.Along World.step (World.Persists text) (World.start config) events ↔
      Runs.Along World.step World.Saves (World.start config) events := by
  have start : (World.start config).Written ∧ (World.start config).Settled :=
    ⟨⟨by simp [World.start], nofun⟩, fun tracked => absurd rfl tracked⟩
  refine @Runs.along_congr _ _ World.step (fun world => world.Written ∧ world.Settled)
    (World.Persists text) World.Saves ?_ ?_ _ start events
  · rintro world event ⟨written, settled⟩
    cases event with
    | leaves index => exact Iff.rfl
    | restarts config => exact Iff.rfl
    | rebalances poll =>
      refine forall_congr' fun succeeds => ?_
      simp only [restoreDocument_eq reads _ (written.rebalance poll).files, Except.ok.injEq]
      rw [World.restores_iff grows settled succeeds]
      exact ⟨fun same => same fun _ => "", fun saved _ => saved⟩
  · rintro world event ⟨written, settled⟩ saves
    exact ⟨written.step event, settled.step grows saves⟩

end Worlds

/-- Whole prices. -/
def wholePrices : PriceText Int where
  render := Int.repr
  parse payload := match payload.toInt? with
    | some price => .ok price
    | none => .error "Invalid decimal: unknown character"

/-- A grid that is seeded, polled with every order resting, and started again. -/
def undisturbed : List (Event Int) :=
  [.rebalances (pollFrom 0 9 true []), .rebalances (pollFrom 10 9 true seededOrders), .restarts grid,
    .rebalances (pollFrom 20 9 true seededOrders)]

theorem wholePrices_reads (price : Int) : wholePrices.parse (wholePrices.render price) = .ok price := by
  simp [wholePrices, Int.toInt?_repr]

theorem restored_undisturbed :
    Runs.Along World.step (World.Persists wholePrices) (World.start grid) undisturbed := by
  have grows : ∀ price step : Int, 0 < step → price ≤ price + step := fun price step positive => by omega
  refine (restored_iff_saved wholePrices_reads grows grid _).mpr ?_
  refine ⟨fun _ current priced => .inr ?_, fun _ current priced => .inr ?_, trivial,
    fun _ current priced => .inr ?_, trivial⟩
  · exact fun level member => absurd member (by simp [World.start])
  · have hundred : currentPrice (pollFrom 10 9 true seededOrders) = some 100 := by decide
    obtain rfl := Option.some.inj (hundred.symm.trans priced)
    decide +kernel
  · exact fun level member => absurd member (by simp [World.step])

/-- A level is filled and flipped, and the file still holds the ladder as it was seeded. -/
theorem flip_unsaved :
    ¬ Runs.Along World.step (World.Persists wholePrices) (World.start grid)
      [.rebalances (pollFrom 0 9 true []), .leaves 1,
        .rebalances (pollFrom 10 9 true (seededOrders.eraseIdx 1))] := by
  rintro ⟨-, -, persists, -⟩
  have written : (World.start grid).Written := ⟨by simp [World.start], nofun⟩
  have after := ((written.step (.rebalances (pollFrom 0 9 true []))).step (.leaves 1)).rebalance
    (pollFrom 10 9 true (seededOrders.eraseIdx 1))
  have restored := persists (by decide +kernel) fun _ => ""
  rw [restoreDocument_eq wholePrices_reads _ after.files] at restored
  exact absurd (Except.ok.inj restored) (by decide +kernel)

end LongTrader.Strategy.SimpleGrid
