import LongTrader.Session.Heartbeat

/-! When a lease check trips its session. The check reads the state, the policy and
the heartbeat clock, and each of them is written by other calls; the run of calls
says when the clock was last written and when the session became active. -/

namespace LongTrader.Session

open Interleave

/-- The predicate that a lease check decides by. -/
def SessionHandle.expired (handle : SessionHandle) (now : Nat) : Prop :=
  SessionState.fromU8 handle.state = some .active ∧
    handle.policy.leaseTimeout < min ((now - handle.lastSeen) / 1000000) (u64Size - 1)

section Check

variable {manager : SessionManager} {sid : String} {before after : Plane}

/-- The actions that do not swap the state of session `sid`. -/
def calmOps (sid : String) : Set Op := {op | ∀ expected next, op ≠ .cas sid expected next}

/-- Whether a session is tripped is as it was. -/
def Plane.SameTrip (sid : String) (before after : Plane) : Prop :=
  before.sessionState sid = some .killSwitchTripped ↔ after.sessionState sid = some .killSwitchTripped

theorem exec_sameTrip {op : Op} (calm : op ∈ calmOps sid) (choice : Choice) (before : Plane)
    (ans : op.Ans) (after : Plane) (fires : before.exec op choice = some (ans, after)) :
    before.SameTrip sid after := by
  unfold Plane.SameTrip
  cases present : before.handles sid with
  | some handle =>
    rcases Plane.exec_sessionState fires present with ⟨_, same⟩ | ⟨source, target, swap, _⟩
    · rw [same]
    · exact absurd (Act.mk.inj swap).1 (calm source target)
  | none =>
    have before : before.sessionState sid ≠ some .killSwitchTripped := by
      simp [Plane.sessionState, present]
    refine iff_of_false before fun tripped => ?_
    obtain ⟨handle, found, decoded⟩ := Plane.handle_of_sessionState tripped
    obtain ⟨policy, client, _, rfl⟩ := Plane.exec_new_handle fires present found
    cases decoded

theorem sameTrip_of_within {α : Type} {task : Task α} (within : task.Within (calmOps sid)) :
    task.Ensures machine (Plane.SameTrip sid) := by
  have transitive : ∀ first second third : Plane, first.SameTrip sid second →
      second.SameTrip sid third → first.SameTrip sid third := fun _ _ _ => Iff.trans
  have reflexive : ∀ plane : Plane, plane.SameTrip sid plane := fun _ => Iff.rfl
  exact within.ensures transitive reflexive fun _ calm => exec_sameTrip calm

theorem steady_calm {op : Op} (free : op.steady = true) : op ∈ calmOps sid := by
  rintro expected next rfl
  cases free

/-- A task that starts by reading the state of a session. -/
theorem alone_load {α : Type} {f : Option SessionState → Task α} {result : α}
    (alone : Alone machine (perform (.load sid) >>= f) before result after) :
    Alone machine (f (before.sessionState sid)) before result after := by
  obtain ⟨handle, found, rest⟩ := alone_read alone fun _ => rfl
  rwa [Plane.sessionState_of_handle found]

/-- A kill switch that finds its session active trips it. -/
theorem tripKillSwitch_trips {answer : Unit}
    (alone : Alone machine (tripKillSwitch manager sid) before answer after)
    (active : before.sessionState sid = some .active) :
    after.sessionState sid = some .killSwitchTripped := by
  have routine : ∀ op : Op, op.steady = true → op ∈ calmOps sid := fun _ => steady_calm
  have announced : ∀ prev, (perform (.markTerminal sid) >>= fun _ =>
      publishStateChange sid prev .killSwitchTripped "lease expired" >>= fun _ =>
        perform (.readPolicy sid) >>= fun policy =>
          executeScope manager sid policy.scope).Within (calmOps sid) := by
    intro prev
    refine .act (by simp [calmOps]) fun _ => ?_
    refine (publishStateChange_within routine (by simp [calmOps]) (by simp [calmOps])
      (by simp [calmOps]) _ _ _).bind fun _ => ?_
    refine .act (routine _ rfl) fun policy => ?_
    exact executeScope_within routine (by simp [calmOps]) (by simp [calmOps]) policy.scope
  unfold tripKillSwitch at alone
  have decided := alone_load alone
  rw [active] at decided
  obtain ⟨choice, swapped, flipped, swaps, rest⟩ := alone_perform.mp decided
  have fires : before.exec (.cas sid .active .killSwitchTripped) choice = some (swapped, flipped) := swaps
  rcases Plane.exec_cas fires with ⟨rfl, _, tripped⟩ | ⟨_, _, other⟩
  · exact (sameTrip_of_within (announced .active) _ _ _ rest).mp tripped
  · exact absurd active other

/-- A check trips the session and says so, or leaves the plane as it is. -/
theorem checkLeaseExpiry_cases {answer : Except ManagerError Bool}
    (alone : Alone machine (checkLeaseExpiry manager sid) before answer after) :
    (∃ handle, before.handles sid = some handle ∧ handle.expired before.now ∧ answer = .ok true ∧
        after.sessionState sid = some .killSwitchTripped) ∨
      after = before ∧ (sid ∈ before.registry →
        ∃ handle, before.handles sid = some handle ∧ ¬ handle.expired before.now) := by
  unfold checkLeaseExpiry at alone
  have listed := alone_get alone
  split at listed
  · obtain ⟨handle, found, decided⟩ := alone_read listed fun _ => rfl
    have judged := alone_load decided
    split at judged
    · rename_i active
      have decoded : SessionState.fromU8 handle.state = some .active :=
        (Plane.sessionState_of_handle found).symm.trans active
      obtain ⟨again, present, timed⟩ := alone_read judged fun _ => rfl
      obtain rfl := Option.some.inj (found.symm.trans present)
      dsimp only [Proc.pure_eq, Proc.done_bind] at timed
      split at timed
      · rename_i late
        obtain ⟨_, reached, trips, ended⟩ := alone_bind.mp timed
        obtain ⟨rfl, rfl⟩ := alone_done.mp ended
        exact .inl ⟨handle, found, ⟨decoded, by simpa using late⟩, by simpa using late,
          tripKillSwitch_trips trips active⟩
      · rename_i early
        obtain ⟨rfl, rfl⟩ := alone_done.mp timed
        exact .inr ⟨rfl, fun _ => ⟨handle, found, fun expired => early (by simpa using expired.2)⟩⟩
    · rename_i other
      obtain ⟨rfl, rfl⟩ := alone_done.mp judged
      refine .inr ⟨rfl, fun _ => ⟨handle, found, fun expired => other ?_⟩⟩
      exact (Plane.sessionState_of_handle found).trans expired.1
  · rename_i unlisted
    obtain ⟨rfl, rfl⟩ := alone_done.mp listed
    exact .inr ⟨rfl, fun member => absurd (by simpa using member) unlisted⟩

/-- A check trips no session but its own. -/
theorem checkLeaseExpiry_elsewhere {target : String} {answer : Except ManagerError Bool}
    (alone : Alone machine (checkLeaseExpiry manager target) before answer after)
    (other : target ≠ sid) : before.SameTrip sid after := by
  have within : (checkLeaseExpiry manager target).Within (calmOps sid) :=
    checkLeaseExpiry_within (fun _ => steady_calm) (by simp [calmOps]) (by simp [calmOps])
      (by simp [calmOps]) (by simp [calmOps]) (by simp [calmOps]) (by simp [calmOps])
      (by simp [calmOps, other])
  exact sameTrip_of_within within _ _ _ alone

/-- Session `sid` is on the plane and nobody holds its ring. -/
def Plane.Ready (sid : String) (plane : Plane) : Prop :=
  ∃ handle, plane.handles sid = some handle ∧ handle.ringLocked = false

/-- The actions of a lease check that are never blocked. -/
def promptOps (sid : String) : Set Op :=
  {op | match op with
    | .load target | .readPolicy target | .lastSeenElapsedMs target | .cas target _ _
    | .markTerminal target | .nextSeq target | .send target _ | .trackedOrders target => target = sid
    | .get _ | .cancelOrder .. | .cancelAllOrders _ => True
    | _ => False}

theorem prompt_fires {op : Op} (prompt : op ∈ promptOps sid) (before : Plane) (ready : before.Ready sid) :
    ∃ choice ans after, before.exec op choice = some (ans, after) ∧ after.Ready sid := by
  obtain ⟨handle, found, free⟩ := ready
  have fires : ∃ choice ans after, before.exec op choice = some (ans, after) := by
    cases op
    case get => exact ⟨.none, _, _, rfl⟩
    case cancelOrder => exact ⟨.cancel .cancelled true, _, _, rfl⟩
    case cancelAllOrders => exact ⟨.cancelAll none, _, _, rfl⟩
    case cas target expected next =>
      obtain rfl : target = sid := prompt
      simp only [Plane.exec, found]
      split
      · exact ⟨.none, _, _, rfl⟩
      · exact ⟨.none, _, _, rfl⟩
    case trackedOrders target =>
      obtain rfl : target = sid := prompt
      have same : handle.trackedCoids.isPerm handle.trackedCoids = true :=
        List.isPerm_iff.mpr (.refl _)
      exact ⟨.iteration handle.trackedCoids, handle.trackedCoids, before, by simp [Plane.exec, found, same]⟩
    case load target | readPolicy target | lastSeenElapsedMs target | markTerminal target
        | nextSeq target | send target event =>
      obtain rfl : target = sid := prompt
      simp only [Plane.exec, Plane.read, Plane.modify, found]
      exact ⟨.none, _, _, rfl⟩
    all_goals exact absurd prompt (by simp [promptOps])
  obtain ⟨choice, ans, after, fires⟩ := fires
  have idle : op ∈ idleOps sid := by
    cases op
    case insertSession | touch | lockRing => exact absurd prompt (by simp [promptOps])
    all_goals trivial
  exact ⟨choice, ans, after, fires, _, Plane.exec_keeps_handle fires found, effect_unlocked idle _ free⟩

theorem prompt_act {α : Type} {op : Op} {f : op.Ans → Task α} (prompt : op ∈ promptOps sid)
    (tail : ∀ ans, (f ans).Finishes machine (Plane.Ready sid)) :
    (perform op >>= f).Finishes machine (Plane.Ready sid) :=
  .act (prompt_fires prompt) tail

theorem publish_finishes (event : StrategyEvent) :
    (publish sid event).Finishes machine (Plane.Ready sid) := by
  unfold publish
  refine prompt_act rfl fun seq => ?_
  intro before ready
  obtain ⟨handle, found, free⟩ := ready
  have locks : before.exec (.lockRing sid) .none =
      some ((), before.setHandle sid { handle with ringLocked := true }) := by
    simp [Plane.exec, found, free]
  obtain ⟨middle, pushes, ready⟩ : ∃ middle,
      (before.setHandle sid { handle with ringLocked := true }).exec
        (.pushRing sid (stamp event seq)) .none = some ((), middle) ∧ middle.Ready sid := by
    simp [Plane.exec, Plane.modify, Plane.setHandle, Plane.Ready]
  have sends : (perform (.send sid (stamp event seq)) >>= fun _ =>
      Proc.done (stamp event seq)).Finishes machine (Plane.Ready sid) :=
    prompt_act rfl fun _ => .done _
  obtain ⟨shared, after, rest, kept⟩ := sends middle ready
  exact ⟨shared, after, .act .none locks (.act .none pushes rest), kept⟩

theorem cancelSessionOrders_finishes :
    (cancelSessionOrders manager sid).Finishes machine (Plane.Ready sid) := by
  unfold cancelSessionOrders
  refine prompt_act rfl fun coids => ?_
  induction coids with
  | nil => exact .done _
  | cons coid rest ih =>
    refine prompt_act trivial fun outcome => ?_
    exact .bind ih fun _ => .done _

theorem tripKillSwitch_finishes :
    (tripKillSwitch manager sid).Finishes machine (Plane.Ready sid) := by
  have cancels : ∀ scope, (executeScope manager sid scope).Finishes machine (Plane.Ready sid) := by
    intro scope
    cases scope with
    | sessionOrders => exact .bind cancelSessionOrders_finishes fun _ => .done _
    | allOrders => exact prompt_act trivial fun _ => .done _
    | unspecified => exact .done _
    | none => exact .done _
  unfold tripKillSwitch
  refine prompt_act rfl fun state => ?_
  split
  · refine prompt_act rfl fun swapped => ?_
    split
    · exact .done _
    · refine prompt_act rfl fun _ => ?_
      refine .bind (.bind (publish_finishes _) fun _ => .done _) fun _ => ?_
      exact prompt_act rfl fun policy => cancels policy.scope
  · exact .done _

/-- A check of a session on the plane always runs to its end. -/
theorem checkLeaseExpiry_finishes :
    (checkLeaseExpiry manager sid).Finishes machine (Plane.Ready sid) := by
  unfold checkLeaseExpiry
  refine prompt_act trivial fun registered => ?_
  split
  · refine prompt_act rfl fun policy => ?_
    refine prompt_act rfl fun state => ?_
    split
    · refine prompt_act rfl fun elapsed => ?_
      dsimp only [Proc.pure_eq, Proc.done_bind]
      split
      · exact .bind tripKillSwitch_finishes fun _ => .done _
      · exact .done _
    · exact .done _
  · exact .done _

end Check

/-- A lease check trips a session only if it is active and has been silent for
longer than its lease; and a check of an active session that was silent for more
than its lease, in whole milliseconds and counted no earlier than its
activation, runs to its end and trips it. -/
theorem lease_trips_on_silence {manager : SessionManager} {start : Nat} {visits : List Visit}
    {plane : Plane} (run : Sequential manager (Plane.vacant start) visits plane)
    (concern : ∀ visit ∈ visits, visit.call.concernsLease = true)
    (accepted : ∀ visit ∈ visits, visit.refusesReconnect = false) (sid : String) :
    (∀ target answer after, Alone machine (checkLeaseExpiry manager target) plane answer after →
      plane.sessionState sid ≠ some .killSwitchTripped →
      after.sessionState sid = some .killSwitchTripped →
      plane.sessionState sid = some .active ∧ ∃ lease heartbeat, plane.leaseTimeout sid = some lease ∧
        lastHeartbeat sid visits = some heartbeat ∧ lease * 1000000 < plane.now - heartbeat) ∧
    (plane.sessionState sid = some .active → ∃ lease heartbeat activated,
      plane.leaseTimeout sid = some lease ∧ lastHeartbeat sid visits = some heartbeat ∧
      activation sid visits = some activated ∧
      (lease < (plane.now - max heartbeat activated) / 1000000 →
        (∃ answer after, Alone machine (checkLeaseExpiry manager sid) plane answer after) ∧
        ∀ answer after, Alone machine (checkLeaseExpiry manager sid) plane answer after →
          answer = .ok true ∧ after.sessionState sid = some .killSwitchTripped)) := by
  obtain ⟨sound, clock⟩ := run.lease (fun _ => rfl) concern accepted sid
  constructor
  · intro target answer after alone before tripped
    obtain rfl : target = sid := by
      by_contra other
      exact before ((checkLeaseExpiry_elsewhere alone other).mpr tripped)
    rcases checkLeaseExpiry_cases alone with ⟨handle, found, expired, _, _⟩ | ⟨rfl, _⟩
    · have late : handle.policy.leaseTimeout < (plane.now - handle.lastSeen) / 1000000 :=
        lt_of_lt_of_le expired.2 (min_le_left _ _)
      refine ⟨(Plane.sessionState_of_handle found).trans expired.1, handle.policy.leaseTimeout,
        handle.lastSeen, by simp [Plane.leaseTimeout, found], clock handle found, ?_⟩
      omega
    · exact absurd tripped before
  · intro active
    obtain ⟨handle, found, decoded⟩ := Plane.handle_of_sessionState active
    obtain ⟨registered, free, bounded⟩ := sound handle found
    obtain ⟨activated, known⟩ := activation_known run (by simp [Plane.sessionState, Plane.vacant]) active
    refine ⟨handle.policy.leaseTimeout, handle.lastSeen, activated, by simp [Plane.leaseTimeout, found],
      clock handle found, known, ?_⟩
    intro silent
    have expired : handle.expired plane.now := by
      refine ⟨decoded, lt_min ?_ ?_⟩
      · have later : plane.now - max handle.lastSeen activated ≤ plane.now - handle.lastSeen :=
          Nat.sub_le_sub_left (le_max_left _ _) _
        exact lt_of_lt_of_le silent (Nat.div_le_div_right later)
      · have small : MAX_LEASE < u64Size - 1 := by decide
        exact lt_of_le_of_lt bounded small
    constructor
    · obtain ⟨answer, after, alone, _⟩ := checkLeaseExpiry_finishes plane ⟨handle, found, free⟩
      exact ⟨answer, after, alone⟩
    · intro answer after alone
      rcases checkLeaseExpiry_cases alone with ⟨_, _, _, answered, tripped⟩ | ⟨_, kept⟩
      · exact ⟨answered, tripped⟩
      · obtain ⟨same, present, alive⟩ := kept registered
        obtain rfl := Option.some.inj (found.symm.trans present)
        exact absurd expired alive

/-- Make calls one after another, given what the environment chooses in each. -/
def conduct (manager : SessionManager) (visits : List Visit) (plane : Plane) :
    List (Call × List Choice) → Option (List Visit × Plane)
  | [] => some (visits, plane)
  | (call, choices) :: rest =>
    match (call.task manager).solo machine choices plane with
    | none => none
    | some (outcome, after) => conduct manager (visits ++ [⟨call, outcome, plane, after⟩]) after rest

theorem Sequential.of_conduct {manager : SessionManager} {initial plane final : Plane}
    {visits made : List Visit} {schedule : List (Call × List Choice)}
    (run : Sequential manager initial visits plane)
    (conducted : conduct manager visits plane schedule = some (made, final)) :
    Sequential manager initial made final := by
  induction schedule generalizing visits plane with
  | nil =>
    obtain ⟨rfl, rfl⟩ := Prod.mk.inj (Option.some.inj conducted)
    exact run
  | cons head rest ih =>
    obtain ⟨call, choices⟩ := head
    simp only [conduct] at conducted
    split at conducted
    · cases conducted
    · rename_i outcome after ran
      exact ih (.visit run (.of_solo ran)) conducted

/-- A schedule that can be followed, with a check after it whose result passes a
test. -/
theorem Sequential.exists_check {manager : SessionManager} {initial : Plane} {sid : String}
    {holds : List Visit → Plane → Except ManagerError Bool → Plane → Prop}
    [∀ visits plane answer after, Decidable (holds visits plane answer after)]
    (schedule : List (Call × List Choice)) (choices : List Choice)
    (tested : ((conduct manager [] initial schedule).any fun made =>
      ((checkLeaseExpiry manager sid).solo machine choices made.2).any fun ended =>
        decide (holds made.1 made.2 ended.1 ended.2)) = true) :
    ∃ visits plane answer after, Sequential manager initial visits plane ∧
      Alone machine (checkLeaseExpiry manager sid) plane answer after ∧
      holds visits plane answer after := by
  obtain ⟨⟨visits, plane⟩, conducted, tested⟩ := (Option.any_eq_true _ _).mp tested
  obtain ⟨⟨answer, after⟩, ran, passes⟩ := (Option.any_eq_true _ _).mp tested
  exact ⟨visits, plane, answer, after, .of_conduct .start conducted, .of_solo ran,
    of_decide_eq_true passes⟩

/-- A run in which session `s1` is attached with a lease, becomes active after a
while, and is left alone for another while. -/
def leaseRun (leaseMs untilActive afterwards : Nat) : List (Call × List Choice) :=
  [(.attach "" (some ⟨some ⟨0, leaseMs * 1000000⟩, .known .none⟩) "" ⟨"", ""⟩, [.ulid "s1"]),
    (.timePasses untilActive, [.none]),
    (.beginReconcile "s1", List.replicate 7 .none),
    (.completeReconcile "s1" 0, List.replicate 8 .none),
    (.timePasses afterwards, [.none])]

/-- A session that reconciled for longer than its lease is tripped one
millisecond after its activation, and a silence of half a millisecond more than
the lease trips nothing. -/
theorem lease_trips_at_activation :
    (∃ visits plane answer after, Sequential mockManager (Plane.vacant 0) visits plane ∧
      Alone machine (checkLeaseExpiry mockManager "s1") plane answer after ∧
      (∀ visit ∈ visits, visit.call.concernsLease = true) ∧
      (∀ visit ∈ visits, visit.refusesReconnect = false) ∧
      plane.sessionState "s1" = some .active ∧ plane.leaseTimeout "s1" = some 500 ∧
      lastHeartbeat "s1" visits = some 0 ∧ activation "s1" visits = some 1000000000 ∧
      plane.now = 1001000000 ∧ after.sessionState "s1" = some .killSwitchTripped) ∧
    (∃ visits plane answer after, Sequential mockManager (Plane.vacant 0) visits plane ∧
      Alone machine (checkLeaseExpiry mockManager "s1") plane answer after ∧
      (∀ visit ∈ visits, visit.call.concernsLease = true) ∧
      (∀ visit ∈ visits, visit.refusesReconnect = false) ∧
      plane.sessionState "s1" = some .active ∧ plane.leaseTimeout "s1" = some 600 ∧
      lastHeartbeat "s1" visits = some 0 ∧ activation "s1" visits = some 0 ∧
      plane.now = 600500000 ∧ after.sessionState "s1" = some .active) :=
  ⟨Sequential.exists_check (leaseRun 500 1000000000 1000000) (List.replicate 12 .none)
      (by decide +kernel),
    Sequential.exists_check (leaseRun 600 0 600500000) (List.replicate 4 .none) (by decide +kernel)⟩

theorem lease_trips_on_silence_after_lease :
    ∃ visits plane, Sequential mockManager (Plane.vacant 0) visits plane ∧
      plane.sessionState "s1" = some .active ∧
      (∃ answer after, Alone machine (checkLeaseExpiry mockManager "s1") plane answer after) ∧
      ∀ answer after, Alone machine (checkLeaseExpiry mockManager "s1") plane answer after →
        answer = .ok true ∧ after.sessionState "s1" = some .killSwitchTripped := by
  obtain ⟨visits, plane, _, _, run, _, concern, accepted, active, known⟩ :
      ∃ visits plane answer after, Sequential mockManager (Plane.vacant 0) visits plane ∧
        Alone machine (checkLeaseExpiry mockManager "s1") plane answer after ∧
        (∀ visit ∈ visits, visit.call.concernsLease = true) ∧
        (∀ visit ∈ visits, visit.refusesReconnect = false) ∧
        plane.sessionState "s1" = some .active ∧ plane.leaseTimeout "s1" = some 600 ∧
        lastHeartbeat "s1" visits = some 0 ∧ activation "s1" visits = some 0 ∧
        plane.now = 601000000 :=
    Sequential.exists_check (leaseRun 600 0 601000000) (List.replicate 12 .none) (by decide +kernel)
  obtain ⟨leased, heard, activated, instant⟩ := known
  refine ⟨visits, plane, run, active, ?_⟩
  obtain ⟨lease, heartbeat, entered, inForce, last, reached, trips⟩ :=
    (lease_trips_on_silence run concern accepted "s1").2 active
  obtain rfl := Option.some.inj (inForce.symm.trans leased)
  obtain rfl := Option.some.inj (last.symm.trans heard)
  obtain rfl := Option.some.inj (reached.symm.trans activated)
  exact trips (by rw [instant]; decide)

end LongTrader.Session
