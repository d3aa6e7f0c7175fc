import LongTrader.Session.Stop
import LongTrader.Session.Submission
import LongTrader.Session.Tracked

/-! Orders in flight while their session is closed: which of them the stop, the
kill-switch or the submission's own unwind cancels. -/

namespace LongTrader.Session

open Interleave

section Pools

variable {ι : Type} [DecidableEq ι] {manager : SessionManager} {plane : Plane} {calls : ι → Call}
  {history pre post : List (Entry sig ι)} {config : Config machine ι Outcome} {closer task : ι}
  {sid : String} {order : Order}

/-- The cancels of a task are shown, whatever the venue answers. -/
theorem cancelCalls_shown (issuer : ι) {exchange : ExchangeId} {outcomes : List (String × CancelOutcome)}
    (issued : outcomes.map (fun row => (⟨Op.cancelOrder exchange row.1, row.2⟩ : Act sig)) ⊆
      own issuer history) :
    ∀ id ∈ outcomes.map Prod.fst, (exchange, id) ∈ shown cancelCall history := by
  intro id listed
  obtain ⟨row, among, rfl⟩ := List.mem_map.mp listed
  have cancels := issued (List.mem_map_of_mem among)
  exact List.mem_filterMap.mpr ⟨_, mem_own.mp cancels, rfl⟩

theorem submitsFor_not_drives {call : Call} (submits : call.submitsFor sid) : ¬ call.drives sid := by
  cases call
  case createOrder | createOrders => exact id
  all_goals cases submits

/-- While the only task that may move a session has not done so, it stays as it is. -/
theorem state_until_swap {source : SessionState} {middle : machine.State}
    (execution : Execution machine (Permitted manager calls) plane pre middle)
    (known : plane.sessionState sid = some source)
    (alone : ∀ task, task ≠ closer → ¬ (calls task).drives sid)
    (pending : ∀ target, (⟨Op.cas sid source target, some source⟩ : Act sig) ∉ own closer pre) :
    Plane.sessionState middle sid = some source := by
  by_contra moved
  obtain ⟨front, mover, target, back, _, rfl, _, drives, _⟩ := first_move execution known moved
  have mine : mover = closer := by
    by_contra other
    exact alone mover other drives
  subst mine
  exact pending target (mem_own.mpr (by simp))

omit [DecidableEq ι] in
theorem registered_at {present : Bool}
    (execution : Execution machine (Permitted manager calls) plane
      (pre ++ Entry.of task (Op.get sid) present :: post) after)
    (registered : sid ∈ plane.registry) : present = true := by
  obtain ⟨middle, next, choice, earlier, fires, _, _⟩ := act_at execution
  have kept := registry_grows earlier registered
  obtain ⟨rfl, _⟩ := Prod.mk.inj (Option.some.inj fires)
  simpa using kept

/-- Only submissions are told of orders. -/
theorem reported_submits (run : Run (pool manager plane calls) history config)
    (reported : order ∈ (own task history).flatMap (reportedOrders (calls task))) :
    ∃ sid, (calls task).submitsFor sid := by
  obtain ⟨⟨op, ans⟩, performed, listed⟩ := List.mem_flatMap.mp reported
  obtain ⟨_, permitted⟩ := (pool_execution run).meets (mem_own.mp performed)
  cases op
  case createOrder request =>
    obtain ⟨asked, same, _⟩ := permitted
    exact ⟨asked.sessionId, by simp [same, Call.submitsFor]⟩
  case createOrders request =>
    obtain ⟨asked, same, _⟩ := permitted
    exact ⟨asked.sessionId, by simp [same, Call.submitsFor]⟩
  case fetchOpenOrders exchange =>
    cases same : calls task
    case createOrders request => exact ⟨request.sessionId, rfl⟩
    all_goals cases ans <;> simp [reportedOrders, same] at listed
  all_goals simp [reportedOrders] at listed

/-- A reported order is either unwound by its own submission, or the submission
found the session open again after it had recorded the order. -/
theorem submission_covered {result : Outcome}
    (run : Run (pool manager plane calls) history config) (named : sid ≠ "")
    (submits : (calls task).submitsFor sid) (finished : config.procs task = .done result)
    (reported : order ∈ (own task history).flatMap (reportedOrders (calls task)))
    (cancellableId : order.id ≠ "") :
    (manager.defaultExchange, order.id) ∈ shown cancelCall history ∨
      ∃ pre state post orders attributed,
        history = pre ++ Entry.of task (Op.load sid) state :: post ∧
        state.any SessionState.isTerminal = false ∧
        Entry.of task (Op.trackOrders sid orders) attributed ∈ pre ∧ order ∈ orders := by
  have completes := run.completes finished
  rcases submission_attributes named submits completes with none | ⟨front, tail, shape, attribution⟩
  · rw [none] at reported
    cases reported
  generalize (own task history).flatMap (reportedOrders (calls task)) = orders
    at reported attribution
  cases attribution with
  | nothing attributed empty =>
    rw [empty] at reported
    cases reported
  | stillOpen attributed state live =>
    have located : own task history = (front ++ [⟨Op.trackOrders sid orders, attributed⟩,
        ⟨Op.addOrdersSubmitted sid attributed, ()⟩]) ++ ⟨Op.load sid, state⟩ :: [] := by
      simpa using shape
    obtain ⟨pre, post, same, earlier, _⟩ := own_locate located
    refine .inr ⟨pre, state, post, orders, attributed, same, live, ?_, reported⟩
    exact mem_own.mp (by simp [earlier])
  | unwound attributed state terminal outcomes listed =>
    left
    have wanted : order.id ∈ outcomes.map Prod.fst := by
      rw [listed]
      exact List.mem_filter.mpr ⟨List.mem_map_of_mem reported, by simpa using cancellableId⟩
    refine cancelCalls_shown task (fun act issued => ?_) order.id wanted
    rw [shape]
    simp only [List.mem_append]
    exact .inr (.inr issued)

/-- The place where a submission found the session open comes before the swap that
closed it. -/
theorem swap_pending_at {state : Option SessionState} {source target swapped : SessionState}
    {after : machine.State}
    (execution : Execution machine (Permitted manager calls) plane
      (pre ++ Entry.of task (Op.load sid) state :: post) after)
    (live : state.any SessionState.isTerminal = false) (terminal : target.isTerminal = true) :
    (⟨Op.cas sid source target, some swapped⟩ : Act sig) ∉ own closer pre := by
  intro member
  obtain ⟨front, back, rfl⟩ := List.append_of_mem (mem_own.mp member)
  obtain ⟨middle, earlier, found, _⟩ := load_at execution
  obtain ⟨_, reached, _, _, at_target, onward⟩ := swap_at earlier
  have kept := terminal_stays onward at_target terminal
  rw [← found, kept] at live
  simp [terminal] at live

/-- A submission of the session recorded its orders after the stop had listed the
tracked set, and found the session open before the stop closed it. -/
def Missed (stopper : ι) (sid : String) (history : List (Entry sig ι)) : Prop :=
  ∃ task ids orders attributed state source swapped,
    [Entry.of stopper (Op.trackedOrders sid) ids,
      Entry.of task (Op.trackOrders sid orders) attributed,
      Entry.of task (Op.load sid) state,
      Entry.of stopper (Op.cas sid source .gracefulShutdown) (some swapped)].Sublist history

omit [DecidableEq ι] in
/-- An order recorded before a submission's re-check is listed by a stop whose listing
came first too, unless the submission slipped between listing and swap. -/
theorem listed_or_missed {ids : List String} {orders : List Order} {attributed : Nat}
    {state : Option SessionState} {source swapped : SessionState} {after : machine.State}
    (execution : Execution machine (Permitted manager calls) plane
      (pre ++ Entry.of task (Op.load sid) state :: post) after)
    (snapshot : Entry.of closer (Op.trackedOrders sid) ids ∈ pre)
    (recordedIn : Entry.of task (Op.trackOrders sid orders) attributed ∈ pre)
    (swap : Entry.of closer (Op.cas sid source .gracefulShutdown) (some swapped) ∈ post)
    (listed : order ∈ orders) (cancellableId : order.id ≠ "") :
    order.id ∈ ids ∨ Missed closer sid (pre ++ Entry.of task (Op.load sid) state :: post) := by
  obtain ⟨front, back, rfl⟩ := List.append_of_mem snapshot
  rcases List.mem_append.mp recordedIn with before | later
  · left
    rw [List.append_assoc, List.cons_append] at execution
    exact snapshot_covers (execution_retried execution) before listed cancellableId
  · right
    have inside : Entry.of task (Op.trackOrders sid orders) attributed ∈ back := by
      simpa using later
    obtain ⟨first, second, rfl⟩ := List.append_of_mem inside
    obtain ⟨third, last, rfl⟩ := List.append_of_mem swap
    refine ⟨task, ids, orders, attributed, state, source, swapped, ?_⟩
    rw [List.append_assoc, List.cons_append, List.append_assoc, List.cons_append]
    apply sublist_from
    apply sublist_from
    apply sublist_from
    apply sublist_from
    exact List.nil_sublist _

/-- Beside submissions only, a stop of an active session lists and cancels the
tracked orders and then closes the session. -/
theorem stop_goes_through (run : Run (pool manager plane calls) history config)
    (stops : calls closer = .stopSession sid true) (finished : ∃ result, config.procs closer = .done result)
    (alone : ∀ task, task ≠ closer → ¬ (calls task).drives sid)
    (active : plane.sessionState sid = some .active) (registered : sid ∈ plane.registry) :
    ∃ (outcomes : List (String × CancelOutcome)) (swapped : SessionState) (tail : List (Act sig)),
      own closer history =
        [⟨Op.get sid, true⟩, ⟨Op.load sid, some .active⟩] ++
          (⟨Op.trackedOrders sid, outcomes.map Prod.fst⟩ ::
            outcomes.map fun row => ⟨Op.cancelOrder manager.defaultExchange row.1, row.2⟩) ++
          (⟨Op.load sid, some .active⟩ ::
            ⟨Op.cas sid .active .gracefulShutdown, some swapped⟩ :: tail) := by
  have execution := pool_execution run
  obtain ⟨result, done⟩ := finished
  obtain ⟨answer, _, path⟩ := stop_path_of_done run stops done
  have reads : ∀ pre state post, history = pre ++ Entry.of closer (Op.load sid) state :: post →
      (∀ target, (⟨Op.cas sid .active target, some .active⟩ : Act sig) ∉ own closer pre) →
      state = some .active := by
    intro pre state post split pending
    rw [split] at execution
    obtain ⟨middle, earlier, found, _⟩ := load_at execution
    rw [← found]
    exact state_until_swap earlier active alone pending
  generalize shape : own closer history = acts at path
  cases path with
  | missing =>
    obtain ⟨pre, post, rfl, _, _⟩ := own_first shape
    have present := registered_at execution registered
    cases present
  | already state terminal =>
    have located : own closer history = [⟨Op.get sid, true⟩] ++ ⟨Op.load sid, some state⟩ :: [] :=
      shape
    obtain ⟨pre, post, split, earlier, _⟩ := own_locate located
    obtain rfl := Option.some.inj (reads pre _ post split (by simp [earlier]))
    cases terminal
  | @through _ _ tail _ first live cancels finish =>
    cases cancels with
    | issued outcomes =>
      have located : own closer history = [⟨Op.get sid, true⟩] ++ ⟨Op.load sid, first⟩ ::
          (⟨Op.trackedOrders sid, outcomes.map Prod.fst⟩ ::
            outcomes.map (fun row => ⟨Op.cancelOrder manager.defaultExchange row.1, row.2⟩) ++
            tail) := by
        simpa using shape
      obtain ⟨pre, post, split, earlier, _⟩ := own_locate located
      obtain rfl := reads pre _ post split (by simp [earlier])
      cases finish with
      | corrupt =>
        obtain ⟨pre, post, split, earlier, _⟩ := own_locate shape
        have found := reads pre _ post split (by simp [earlier])
        cases found
      | closed prev terminal =>
        obtain ⟨pre, post, split, earlier, _⟩ := own_locate shape
        obtain rfl := Option.some.inj (reads pre _ post split (by simp [earlier]))
        cases terminal
      | lost prev alive state =>
        obtain ⟨pre, post, split, earlier, _⟩ := own_locate shape
        obtain rfl := Option.some.inj (reads pre _ post split (by simp [earlier]))
        rw [List.append_cons] at shape
        obtain ⟨pre, post, split, earlier, _⟩ := own_locate shape
        rw [split] at execution
        obtain ⟨middle, toSwap, differs, _⟩ := lost_swap_at execution
        exact absurd (state_until_swap toSwap active alone (by simp [earlier])) differs
      | won prev swapped alive seq state =>
        obtain ⟨pre, post, split, earlier, _⟩ := own_locate shape
        obtain rfl := Option.some.inj (reads pre _ post split (by simp [earlier]))
        exact ⟨outcomes, swapped, _, rfl⟩

/-- Unless a submission slips between the stop's listing and its swap, every order of
the session that the venue reported back has had its cancel by the time all calls
have finished. -/
theorem stop_cancels_every_order (run : Run (pool manager plane calls) history config)
    (named : sid ≠ "") (active : plane.sessionState sid = some .active)
    (registered : sid ∈ plane.registry) (stops : calls closer = .stopSession sid true)
    (submissions : ∀ task, task ≠ closer → (calls task).submitsFor sid)
    (finished : ∀ task, ∃ result, config.procs task = .done result)
    (reported : ∀ placed ∈ Plane.venue config.state, placed.session = sid →
      placed.order.id ∈ plane.tracked sid ∨ (placed.order.id ≠ "" ∧
        ∃ task, placed.order ∈ (own task history).flatMap (reportedOrders (calls task))))
    (unmissed : ¬ Missed closer sid history) :
    ∀ placed ∈ Plane.venue config.state, placed.session = sid →
      (manager.defaultExchange, placed.order.id) ∈ shown cancelCall history := by
  have execution := pool_execution run
  obtain ⟨outcomes, swapped, tail, shape⟩ := stop_goes_through run stops (finished closer)
    (fun task other => submitsFor_not_drives (submissions task other)) active registered
  have cancelled : ∀ id ∈ outcomes.map Prod.fst,
      (manager.defaultExchange, id) ∈ shown cancelCall history := by
    refine cancelCalls_shown closer fun act issued => ?_
    rw [shape]
    simp only [List.mem_append, List.mem_cons]
    exact .inl (.inr (.inr issued))
  have located : own closer history = [⟨Op.get sid, true⟩, ⟨Op.load sid, some .active⟩] ++
      ⟨Op.trackedOrders sid, outcomes.map Prod.fst⟩ ::
        (outcomes.map (fun row => ⟨Op.cancelOrder manager.defaultExchange row.1, row.2⟩) ++
          (⟨Op.load sid, some .active⟩ ::
            ⟨Op.cas sid .active .gracefulShutdown, some swapped⟩ :: tail)) := by
    simpa using shape
  intro placed member mine
  rcases reported placed member mine with initial | ⟨cancellableId, task, report⟩
  · obtain ⟨pre, post, rfl, _, _⟩ := own_locate located
    exact cancelled _ (snapshot_covers_initial (execution_retried execution) initial)
  · have other : task ≠ closer := by
      intro same
      obtain ⟨_, submits⟩ := reported_submits run report
      rw [same, stops] at submits
      exact submits
    obtain ⟨result, done⟩ := finished task
    rcases submission_covered run named (submissions task other) done report cancellableId with
      unwound | ⟨pre, state, post, orders, attributed, rfl, live, recordedIn, listed⟩
    · exact unwound
    · apply cancelled
      by_cases early : (⟨Op.trackedOrders sid, outcomes.map Prod.fst⟩ : Act sig) ∈ own closer pre
      · have swap : (⟨Op.cas sid .active .gracefulShutdown, some swapped⟩ : Act sig) ∈
            own closer (pre ++ Entry.of task (Op.load sid) state :: post) := by
          simp [located]
        have pending : (⟨Op.cas sid .active .gracefulShutdown, some swapped⟩ : Act sig) ∉
            own closer pre := swap_pending_at execution live rfl
        have later : Entry.of closer (Op.cas sid .active .gracefulShutdown) (some swapped) ∈ post := by
          rw [own_append, List.mem_append] at swap
          simpa using mem_own.mp (swap.resolve_left pending)
        rcases listed_or_missed execution (mem_own.mp early) recordedIn later listed cancellableId
          with covered | missed
        · exact covered
        · exact absurd missed unmissed
      · obtain ⟨between, _, later⟩ := own_after located early
        obtain ⟨first, last, split, _, _⟩ := own_locate later
        rw [split, ← List.append_assoc] at execution
        exact snapshot_covers (execution_retried execution) (List.mem_append_left _ recordedIn) listed cancellableId

/-- The part an action can play in a missed submission. -/
def missedRole : Act sig → Nat
  | ⟨.trackedOrders _, _⟩ => 1
  | ⟨.trackOrders _ _, _⟩ => 2
  | ⟨.load _, _⟩ => 3
  | ⟨.cas _ _ _, some _⟩ => 4
  | _ => 0

omit [DecidableEq ι] in
theorem not_missed_of_roles
    (absent : [1, 2, 3, 4].isSublist (history.map fun entry => missedRole entry.act) = false) :
    ¬ Missed closer sid history := by
  intro missed
  obtain ⟨task, ids, orders, attributed, state, source, swapped, pattern⟩ := missed
  have roles := pattern.map fun entry => missedRole entry.act
  have found := List.isSublist_iff_sublist.mpr roles
  exact Bool.false_ne_true (absent.symm.trans found)

end Pools

/-- A stop that cancels, beside one submission. -/
def stopBesideSubmission : Bool → Call
  | false => .stopSession "s1" true
  | true => .createOrder (mockSubmission none)

/-- The stop lists `o1`; the submission places and records `o2` and finds the session
open; then the stop closes it. `o2` rests without a cancel. -/
theorem stop_misses_submission :
    ∃ history config,
      Run (pool mockManager (Plane.single (.inState .active ["o1"])) stopBesideSubmission) history
        config ∧
      (∀ task, ∃ result, config.procs task = .done result) ∧
      Plane.venue config.state = [⟨"s1", mockManager.defaultExchange, mockOrder "o2", true⟩] ∧
      shown cancelCall history = [(mockManager.defaultExchange, "o1")] :=
  Run.exists_of_replay
    (List.flatten [[(false, .none), (false, .none), (false, .iteration ["o1"]), (true, .none),
      (true, .none), (true, .create (.accepted (mockOrder "o2"))), (true, .none), (true, .none), (true, .none),
      (false, .cancel .cancelled true)], List.replicate 8 (false, .none)]) (by decide +kernel)

theorem stop_cancels_every_order_in_turn :
    ∃ history config,
      Run (pool mockManager (Plane.single (.inState .active ["o1"])) stopBesideSubmission) history
        config ∧
      Plane.venue config.state = [⟨"s1", mockManager.defaultExchange, mockOrder "o2", false⟩] ∧
      ∀ placed ∈ Plane.venue config.state, placed.session = "s1" →
        (mockManager.defaultExchange, placed.order.id) ∈ shown cancelCall history := by
  obtain ⟨history, config, run, venue, told, roles, stopped, submitted⟩ : ∃ history config,
      Run (pool mockManager (Plane.single (.inState .active ["o1"])) stopBesideSubmission) history
        config ∧
      Plane.venue config.state = [⟨"s1", mockManager.defaultExchange, mockOrder "o2", false⟩] ∧
      (own true history).flatMap (reportedOrders (stopBesideSubmission true)) = [mockOrder "o2"] ∧
      [1, 2, 3, 4].isSublist (history.map fun entry => missedRole entry.act) = false ∧
      (∃ result, config.procs false = .done result) ∧ ∃ result, config.procs true = .done result :=
    Run.exists_of_replay
      (List.flatten [[(true, .none), (true, .none), (true, .create (.accepted (mockOrder "o2"))),
        (true, .none),
        (true, .none), (true, .none), (false, .none), (false, .none),
        (false, .iteration ["o2", "o1"]), (false, .cancel .cancelled true),
        (false, .cancel .cancelled true)], List.replicate 8 (false, .none)]) (by decide +kernel)
  have stops : stopBesideSubmission false = .stopSession "s1" true := rfl
  refine ⟨history, config, run, venue, stop_cancels_every_order run (by decide) rfl (by decide) stops
    ?_ ?_ ?_ (not_missed_of_roles roles)⟩
  · intro task other
    cases task
    · exact absurd rfl other
    · rfl
  · intro task
    cases task
    · exact stopped
    · exact submitted
  · intro placed member _
    rw [venue] at member
    obtain rfl := List.mem_singleton.mp member
    exact .inr ⟨by decide, true, by simp [told]⟩

/-- The ways through a kill-switch trip. -/
inductive TripPath (manager : SessionManager) (sid : String) : List (Act sig) → Prop where
  | idle (state : Option SessionState) (calm : state ≠ some .active) :
      TripPath manager sid [⟨Op.load sid, state⟩]
  | lost : TripPath manager sid
      [⟨Op.load sid, some .active⟩, ⟨Op.cas sid .active .killSwitchTripped, none⟩]
  | tripped (swapped : SessionState) (seq : Nat) (policy : SessionPolicy) (result : Unit)
      (scope : (executeScope manager sid policy.scope).Completes tail result) :
      TripPath manager sid
        (⟨Op.load sid, some .active⟩ :: ⟨Op.cas sid .active .killSwitchTripped, some swapped⟩ ::
          ⟨Op.markTerminal sid, ()⟩ ::
          (announced sid swapped .killSwitchTripped "lease expired" seq ++
            ⟨Op.readPolicy sid, policy⟩ :: tail))

theorem tripKillSwitch_completes {manager : SessionManager} {sid : String} {acts : List (Act sig)}
    {result : Unit} (finishes : (tripKillSwitch manager sid).Completes acts result) :
    TripPath manager sid acts := by
  obtain ⟨state, rest, rfl, decides⟩ := Proc.completes_perform_bind.mp finishes
  split at decides
  · obtain ⟨swapped, rest, rfl, continues⟩ := Proc.completes_perform_bind.mp decides
    split at continues
    · obtain ⟨rfl, _⟩ := continues
      exact .lost
    · rename_i prev
      obtain ⟨⟨⟩, rest, rfl, publishes⟩ := Proc.completes_perform_bind.mp continues
      obtain ⟨news, tail, ⟨⟩, rfl, announces, ends⟩ := Proc.completes_bind.mp publishes
      obtain ⟨seq, rfl⟩ := publishStateChange_completes announces
      obtain ⟨policy, tail, rfl, executes⟩ := Proc.completes_perform_bind.mp ends
      exact .tripped prev seq policy result executes
  · rename_i calm
    obtain ⟨rfl, _⟩ := decides
    exact .idle state calm

namespace Plane

theorem effect_policy {op : Op} {sid : String} (noUpdate : ∀ policy, op ≠ .updatePolicy sid policy)
    (now : Nat) (handle : SessionHandle) : (effect op sid now handle).policy = handle.policy := by
  cases op
  case updatePolicy target policy =>
    have away : target ≠ sid := by
      intro same
      exact noUpdate policy (by rw [same])
    simp [effect, away]
  all_goals
    simp only [effect]
    try (split <;> rfl)

end Plane

section Trips

variable {ι : Type} [DecidableEq ι] {manager : SessionManager} {plane : Plane} {calls : ι → Call}
  {history pre post : List (Entry sig ι)} {config : Config machine ι Outcome} {closer task : ι}
  {sid : String} {order : Order}

omit [DecidableEq ι] in
/-- A policy that no call configures stays what it was. -/
theorem policy_kept {handle : SessionHandle} {after : machine.State}
    (execution : Execution machine (Permitted manager calls) plane history after)
    (fixed : ∀ task, ¬ (calls task).configures sid) (found : plane.handles sid = some handle) :
    ∃ later, Plane.handles after sid = some later ∧ later.policy = handle.policy := by
  induction execution with
  | start => exact ⟨handle, found, rfl⟩
  | @step history task op ans last after earlier choice fires meets ih =>
    obtain ⟨later, present, same⟩ := ih
    refine ⟨_, Plane.exec_keeps_handle fires present, ?_⟩
    rw [← same]
    apply Plane.effect_policy
    intro policy updates
    subst updates
    exact fixed task meets

omit [DecidableEq ι] in
theorem policy_at {policy : SessionPolicy} {handle : SessionHandle} {after : machine.State}
    (execution : Execution machine (Permitted manager calls) plane
      (pre ++ Entry.of task (Op.readPolicy sid) policy :: post) after)
    (fixed : ∀ task, ¬ (calls task).configures sid) (found : plane.handles sid = some handle) :
    policy = handle.policy := by
  obtain ⟨middle, next, choice, earlier, fires, _, _⟩ := act_at execution
  obtain ⟨later, present, same⟩ := policy_kept earlier fixed found
  obtain ⟨read, seen, answered⟩ := Option.map_eq_some_iff.mp fires
  obtain rfl := Option.some.inj (present.symm.trans seen)
  exact (Prod.mk.inj answered).1.symm.trans same

/-- Beside submissions only, a trip of an active session closes it and then lists and
cancels the tracked orders, if that is its scope. -/
theorem trip_goes_through (run : Run (pool manager plane calls) history config)
    (trips : calls closer = .tripKillSwitch sid)
    (finished : ∃ result, config.procs closer = .done result)
    (alone : ∀ task, task ≠ closer → ¬ (calls task).drives sid)
    (fixed : ∀ task, ¬ (calls task).configures sid)
    (active : plane.sessionState sid = some .active)
    (inScope : ∀ handle, plane.handles sid = some handle → handle.policy.scope = .sessionOrders) :
    ∃ (swapped : SessionState) (middle : List (Act sig))
      (outcomes : List (String × CancelOutcome)),
      own closer history =
        [⟨Op.load sid, some .active⟩] ++ ⟨Op.cas sid .active .killSwitchTripped, some swapped⟩ ::
          (middle ++ ⟨Op.trackedOrders sid, outcomes.map Prod.fst⟩ ::
            outcomes.map fun row => ⟨Op.cancelOrder manager.defaultExchange row.1, row.2⟩) := by
  have execution := pool_execution run
  obtain ⟨result, done⟩ := finished
  have completes := run.completes done
  have program : (pool manager plane calls).procs closer =
      (fun _ => .tripped) <$> tripKillSwitch manager sid := by
    simp [pool, trips, Call.task]
  rw [program] at completes
  obtain ⟨_, finishes, _⟩ := Proc.completes_map.mp completes
  have path := tripKillSwitch_completes finishes
  generalize shape : own closer history = acts at path
  cases path with
  | idle state calm =>
    obtain ⟨pre, post, rfl, earlier, _⟩ := own_first shape
    obtain ⟨middle, toRead, found, _⟩ := load_at execution
    rw [← found] at calm
    exact absurd (state_until_swap toRead active alone (by simp [earlier])) calm
  | lost =>
    have located : own closer history = [⟨Op.load sid, some .active⟩] ++
        ⟨Op.cas sid .active .killSwitchTripped, none⟩ :: [] := shape
    obtain ⟨pre, post, rfl, earlier, _⟩ := own_locate located
    obtain ⟨middle, toSwap, differs, _⟩ := lost_swap_at execution
    exact absurd (state_until_swap toSwap active alone (by simp [earlier])) differs
  | @tripped tail swapped seq policy _ scope =>
    obtain ⟨handle, found, _⟩ := Plane.handle_of_sessionState active
    have located : own closer history =
        (⟨Op.load sid, some .active⟩ :: ⟨Op.cas sid .active .killSwitchTripped, some swapped⟩ ::
          ⟨Op.markTerminal sid, ()⟩ ::
          announced sid swapped .killSwitchTripped "lease expired" seq) ++
            ⟨Op.readPolicy sid, policy⟩ :: tail := shape
    obtain ⟨pre, post, rfl, _, _⟩ := own_locate located
    rw [policy_at execution fixed found, inScope handle found] at scope
    obtain ⟨cancels, rest, failures, rfl, lists, rfl, _⟩ := Proc.completes_bind.mp scope
    obtain ⟨outcomes, rfl, _⟩ := cancelSessionOrders_completes lists
    refine ⟨swapped, ⟨Op.markTerminal sid, ()⟩ ::
      (announced sid swapped .killSwitchTripped "lease expired" seq ++
        [⟨Op.readPolicy sid, policy⟩]), outcomes, ?_⟩
    simp

/-- Every order of the session that was tracked before, or whose submission the venue
answered with a usable id, is addressed by a cancel once all calls have finished. -/
theorem trip_cancels_answered_orders (run : Run (pool manager plane calls) history config)
    (named : sid ≠ "") (active : plane.sessionState sid = some .active)
    (inScope : ∀ handle, plane.handles sid = some handle → handle.policy.scope = .sessionOrders)
    (trips : calls closer = .tripKillSwitch sid)
    (submissions : ∀ task, task ≠ closer →
      ∃ request, calls task = .createOrder request ∧ request.sessionId = sid)
    (finished : ∀ task, ∃ result, config.procs task = .done result) :
    ∀ placed ∈ Plane.venue config.state, placed.session = sid →
      placed.order.id ∈ plane.tracked sid ∨ (placed.order.id ≠ "" ∧
        ∃ task request, Entry.of task (Op.createOrder request) (Except.ok placed.order) ∈ history) →
      (manager.defaultExchange, placed.order.id) ∈ shown cancelCall history := by
  have execution := pool_execution run
  have submits : ∀ task, task ≠ closer → (calls task).submitsFor sid := by
    intro task other
    obtain ⟨request, same, mine⟩ := submissions task other
    rw [same]
    exact mine
  have fixed : ∀ task, ¬ (calls task).configures sid := by
    intro task
    by_cases same : task = closer
    · rw [same, trips]
      exact id
    · obtain ⟨request, asked, _⟩ := submissions task same
      rw [asked]
      exact id
  obtain ⟨swapped, middle, outcomes, shape⟩ := trip_goes_through run trips (finished closer)
    (fun task other => submitsFor_not_drives (submits task other)) fixed active inScope
  have cancelled : ∀ id ∈ outcomes.map Prod.fst,
      (manager.defaultExchange, id) ∈ shown cancelCall history := by
    refine cancelCalls_shown closer fun act issued => ?_
    rw [shape]
    simp only [List.mem_append, List.mem_cons]
    exact .inr (.inr (.inr (.inr issued)))
  intro placed _ mine either
  rcases either with initial | ⟨cancellableId, task, request, answered⟩
  · rw [← List.cons_append, ← List.append_assoc] at shape
    obtain ⟨pre, post, rfl, _, _⟩ := own_locate shape
    exact cancelled _ (snapshot_covers_initial (execution_retried execution) initial)
  · have report : placed.order ∈ (own task history).flatMap (reportedOrders (calls task)) :=
      List.mem_flatMap.mpr ⟨_, mem_own.mpr answered, List.mem_singleton.mpr rfl⟩
    have other : task ≠ closer := by
      intro same
      obtain ⟨_, submitted⟩ := reported_submits run report
      rw [same, trips] at submitted
      exact submitted
    obtain ⟨result, done⟩ := finished task
    rcases submission_covered run named (submits task other) done report cancellableId with
      unwound | ⟨pre, state, post, orders, attributed, rfl, live, recordedIn, listed⟩
    · exact unwound
    · -- the re-check found the session open, so the swap and the listing come later
      have pending : (⟨Op.cas sid .active .killSwitchTripped, some swapped⟩ : Act sig) ∉
          own closer pre := swap_pending_at execution live rfl
      obtain ⟨between, _, later⟩ := own_after shape pending
      rw [← List.cons_append, ← List.append_assoc] at later
      obtain ⟨first, last, split, _, _⟩ := own_locate later
      rw [split, ← List.append_assoc] at execution
      exact cancelled _
        (snapshot_covers (execution_retried execution) (List.mem_append_left _ recordedIn) listed cancellableId)

end Trips

/-- A trip beside one submission. -/
def tripBesideSubmission : Bool → Call
  | false => .tripKillSwitch "s1"
  | true => .createOrder (mockSubmission none)

/-- Two runs that leave an order of the session without any cancel: the venue gave it
an empty id, or the answer to its submission was lost. -/
theorem trip_misses_unidentified_orders :
    (∃ history config,
      Run (pool mockManager (Plane.single (.inState .active [])) tripBesideSubmission) history
        config ∧
      (∀ task, ∃ result, config.procs task = .done result) ∧
      Plane.venue config.state = [⟨"s1", mockManager.defaultExchange, mockOrder "", true⟩] ∧
      shown cancelCall history = []) ∧
    (∃ history config,
      Run (pool mockManager (Plane.single (.inState .active [])) tripBesideSubmission) history
        config ∧
      (∀ task, ∃ result, config.procs task = .done result) ∧
      Plane.venue config.state = [⟨"s1", mockManager.defaultExchange, mockOrder "o2", true⟩] ∧
      shown cancelCall history = []) := by
  constructor
  · exact Run.exists_of_replay
      (List.flatten [[(true, .none), (true, .none), (true, .create (.accepted (mockOrder ""))),
        (true, .none), (true, .none), (true, .none)], List.replicate 8 (false, .none),
        [(false, .iteration [])]]) (by decide +kernel)
  · exact Run.exists_of_replay
      (List.flatten [[(true, .none), (true, .none),
        (true, .create (.lost (mockOrder "o2") (.transport "connection reset")))],
        List.replicate 8 (false, .none), [(false, .iteration [])]]) (by decide +kernel)

/-- The trip lists the tracked set before the submission records; the submission
unwinds its own order. -/
theorem trip_cancels_answered_orders_unwound :
    ∃ history config,
      Run (pool mockManager (Plane.single (.inState .active [])) tripBesideSubmission) history
        config ∧
      Plane.venue config.state = [⟨"s1", mockManager.defaultExchange, mockOrder "o2", false⟩] ∧
      (mockManager.defaultExchange, "o2") ∈ shown cancelCall history := by
  obtain ⟨history, config, run, venue, answered, tripped, submitted⟩ : ∃ history config,
      Run (pool mockManager (Plane.single (.inState .active [])) tripBesideSubmission) history
        config ∧
      Plane.venue config.state = [⟨"s1", mockManager.defaultExchange, mockOrder "o2", false⟩] ∧
      (⟨true, ⟨Op.createOrder (routeOrder mockManager.defaultExchange (mockSubmission none)),
        Except.ok (mockOrder "o2")⟩⟩ : Entry sig Bool) ∈ history ∧
      (∃ result, config.procs false = .done result) ∧ ∃ result, config.procs true = .done result :=
    ⟨_, _, @Run.of_replay sig machine Bool _ Outcome _ _ _
      (List.flatten [[(true, .none), (true, .none), (true, .create (.accepted (mockOrder "o2")))],
        List.replicate 8 (false, .none), [(false, .iteration []), (true, .none), (true, .none),
        (true, .none), (true, .cancel .cancelled true)]]) rfl,
      rfl, .tail _ (.tail _ (.head _)), ⟨_, rfl⟩, ⟨_, rfl⟩⟩
  have trips : tripBesideSubmission false = .tripKillSwitch "s1" := rfl
  have inScope : ∀ handle, (Plane.single (.inState .active [])).handles "s1" = some handle →
      handle.policy.scope = .sessionOrders := by
    intro handle found
    obtain rfl := Option.some.inj found
    rfl
  have submissions : ∀ task, task ≠ false →
      ∃ request, tripBesideSubmission task = .createOrder request ∧ request.sessionId = "s1" := by
    intro task other
    cases task
    · exact absurd rfl other
    · exact ⟨mockSubmission none, rfl, rfl⟩
  have finished : ∀ task, ∃ result, config.procs task = .done result := by
    intro task
    cases task
    · exact tripped
    · exact submitted
  refine ⟨history, config, run, venue, ?_⟩
  exact trip_cancels_answered_orders run (by decide) rfl inScope trips submissions finished
    ⟨"s1", mockManager.defaultExchange, mockOrder "o2", false⟩ (by simp [venue]) rfl
    (.inr ⟨by decide, true, _, answered⟩)

end LongTrader.Session
