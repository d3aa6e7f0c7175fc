import LongTrader.Session.Transitions

/-! The heartbeat clock of a session in a run of calls that are made one after
another: an accepted heartbeat sets it, and every other call leaves it alone. -/

namespace LongTrader.Session

open Interleave

/-- One call of a run: how it ended, and the planes around it. -/
structure Visit where
  call : Call
  outcome : Outcome
  before : Plane
  after : Plane

/-- The instant of a call. -/
def Visit.instant (visit : Visit) : Nat := visit.before.now

/-- Calls made one after another, each to its end before the next. -/
inductive Sequential (manager : SessionManager) (initial : Plane) : List Visit → Plane → Prop where
  | start : Sequential manager initial [] initial
  | visit {visits : List Visit} {call : Call} {outcome : Outcome} {before after : Plane}
      (earlier : Sequential manager initial visits before)
      (alone : Alone machine (call.task manager) before outcome after) :
      Sequential manager initial (visits ++ [⟨call, outcome, before, after⟩]) after

/-- A control plane without sessions. -/
def Plane.vacant (now : Nat) : Plane := ⟨fun _ => none, [], [], now⟩

/-- The calls that write the lease, the clock or the state it is decided from. -/
def Call.concernsLease : Call → Bool
  | .attach .. | .keepAlive _ | .setKillSwitchPolicy .. | .beginReconcile _
  | .completeReconcile .. | .reconcileState _ | .checkLeaseExpiry _ | .timePasses _ => true
  | _ => false

/-- An attach that names a session of the plane and is refused. -/
def Visit.refusesReconnect (visit : Visit) : Bool :=
  match visit.call, visit.outcome with
  | .attach _ _ target _, .attached (.error _) => (visit.before.handles target).isSome
  | _, _ => false

/-- An accepted heartbeat of session `sid`: an attach, a reconnect or a keep-alive. -/
def Visit.beats (sid : String) (visit : Visit) : Bool :=
  match visit.call, visit.outcome with
  | .attach .., .attached (.ok (id, _)) => id = sid
  | .keepAlive target, .keptAlive (.ok _) => target = sid
  | _, _ => false

/-- The call with which session `sid` became active. -/
def Visit.activates (sid : String) (visit : Visit) : Bool :=
  visit.before.sessionState sid ≠ some .active && visit.after.sessionState sid = some .active

/-- The instant of the last call of a kind. -/
def lastInstant (kind : Visit → Bool) (visits : List Visit) : Option Nat :=
  (visits.reverse.find? kind).map Visit.instant

def lastHeartbeat (sid : String) : List Visit → Option Nat := lastInstant (Visit.beats sid)

def activation (sid : String) : List Visit → Option Nat := lastInstant (Visit.activates sid)

/-- The lease in force, in milliseconds. -/
def Plane.leaseTimeout (plane : Plane) (sid : String) : Option Nat :=
  (plane.handles sid).map (·.policy.leaseTimeout)

theorem lastInstant_snoc (kind : Visit → Bool) (visits : List Visit) (visit : Visit) :
    lastInstant kind (visits ++ [visit]) =
      if kind visit then some visit.instant else lastInstant kind visits := by
  unfold lastInstant
  rw [List.reverse_append, List.reverse_singleton, List.singleton_append, List.find?_cons]
  cases kind visit <;> rfl

/-- An active session became active with some call of the run. -/
theorem activation_known {manager : SessionManager} {initial plane : Plane} {visits : List Visit}
    {sid : String} (run : Sequential manager initial visits plane)
    (inactive : initial.sessionState sid ≠ some .active)
    (active : plane.sessionState sid = some .active) : ∃ instant, activation sid visits = some instant := by
  induction run with
  | start => exact absurd active inactive
  | @visit visits call outcome before after earlier alone ih =>
    unfold activation at ih ⊢
    rw [lastInstant_snoc]
    by_cases already : before.sessionState sid = some .active
    · simpa [Visit.activates, already] using ih already
    · simp [Visit.activates, already, active]

/-- A session that a lease check can run on: it is registered, its ring is free
and its lease is within the bounds. -/
def Plane.Sound (plane : Plane) (sid : String) : Prop :=
  ∀ handle, plane.handles sid = some handle → sid ∈ plane.registry ∧ handle.ringLocked = false ∧
    handle.policy.leaseTimeout ≤ MAX_LEASE

/-- Nothing happened to the heartbeat clock of session `sid`, and the session
stayed sound. -/
structure Plane.Idle (sid : String) (before after : Plane) : Prop where
  clock : ∀ later, after.handles sid = some later →
    ∃ handle, before.handles sid = some handle ∧ later.lastSeen = handle.lastSeen
  sound : before.Sound sid → after.Sound sid

theorem Plane.Idle.refl (sid : String) (plane : Plane) : plane.Idle sid plane :=
  ⟨fun later found => ⟨later, found, rfl⟩, id⟩

theorem Plane.Idle.trans (sid : String) (first second third : Plane) (one : first.Idle sid second)
    (two : second.Idle sid third) : first.Idle sid third := by
  refine ⟨?_, two.sound ∘ one.sound⟩
  intro later found
  obtain ⟨handle, present, same⟩ := two.clock later found
  obtain ⟨oldest, original, equal⟩ := one.clock handle present
  exact ⟨oldest, original, same.trans equal⟩

/-- A policy keeps the lease within the bounds, accepted or not. -/
theorem applyPolicy_bounded {current : SessionPolicy} (bounded : current.leaseTimeout ≤ MAX_LEASE)
    (policy : KillSwitchPolicy) : (applyPolicy current policy).1.leaseTimeout ≤ MAX_LEASE := by
  have parsed : ∀ timeout lease, leaseTimeoutFromProto timeout = .ok lease → lease ≤ MAX_LEASE := by
    intro timeout lease accepted
    unfold leaseTimeoutFromProto at accepted
    simp only at accepted
    split at accepted
    · cases accepted
    · split at accepted
      · cases accepted
      · split at accepted
        · cases accepted
        · rename_i inside
          obtain rfl := Except.ok.inj accepted
          simp only [Bool.or_eq_true, decide_eq_true_eq, not_or, Nat.not_lt] at inside
          exact inside.2
  unfold applyPolicy
  cases policy.leaseTimeout with
  | none =>
    simp only
    split
    all_goals exact bounded
  | some timeout =>
    simp only
    cases accepted : leaseTimeoutFromProto timeout with
    | error error => exact bounded
    | ok lease =>
      simp only [Except.map]
      split
      all_goals exact parsed timeout lease accepted

/-- The actions that leave the clock of session `sid` and the lock of its ring
alone. -/
def idleOps (sid : String) : Set Op :=
  {op | match op with
    | .insertSession .. => False
    | .touch target | .lockRing target => target ≠ sid
    | _ => True}

section Actions

variable {sid : String} {op : Op}

theorem effect_lastSeen (idle : op ∈ idleOps sid) (now : Nat) (handle : SessionHandle) :
    (Plane.effect op sid now handle).lastSeen = handle.lastSeen := by
  cases op
  case touch target => simp [Plane.effect, show target ≠ sid from idle]
  all_goals
    simp only [Plane.effect]
    try (split <;> rfl)

theorem effect_unlocked (idle : op ∈ idleOps sid) (now : Nat) {handle : SessionHandle}
    (free : handle.ringLocked = false) : (Plane.effect op sid now handle).ringLocked = false := by
  cases op
  case lockRing target => simpa [Plane.effect, show target ≠ sid from idle] using free
  all_goals
    simp only [Plane.effect]
    try split
    all_goals first
      | exact free
      | rfl

theorem effect_bounded (now : Nat) {handle : SessionHandle}
    (bounded : handle.policy.leaseTimeout ≤ MAX_LEASE) :
    (Plane.effect op sid now handle).policy.leaseTimeout ≤ MAX_LEASE := by
  cases op
  case updatePolicy target policy =>
    simp only [Plane.effect]
    split
    · exact applyPolicy_bounded bounded policy
    · exact bounded
  all_goals
    simp only [Plane.effect]
    try split
    all_goals exact bounded

theorem exec_idle (idle : op ∈ idleOps sid) (choice : Choice) (before : Plane) (ans : op.Ans)
    (after : Plane) (fires : before.exec op choice = some (ans, after)) : before.Idle sid after := by
  have attached : ∀ policy client, op ≠ .insertSession policy client := by
    rintro policy client rfl
    exact idle
  have handles := Plane.exec_handles fires attached sid
  constructor
  · intro later found
    obtain ⟨handle, present, rfl⟩ := Option.map_eq_some_iff.mp (handles.symm.trans found)
    exact ⟨handle, present, effect_lastSeen idle _ _⟩
  · intro sound later found
    obtain ⟨handle, present, rfl⟩ := Option.map_eq_some_iff.mp (handles.symm.trans found)
    obtain ⟨registered, free, bounded⟩ := sound handle present
    exact ⟨Plane.exec_registry fires registered, effect_unlocked idle _ free, effect_bounded _ bounded⟩

/-- A push releases the ring that its task has locked. -/
theorem lock_push_idle {event : StrategyEvent} (choice other : Choice) {before middle after : Plane}
    (locks : before.exec (.lockRing sid) choice = some ((), middle))
    (pushes : middle.exec (.pushRing sid event) other = some ((), after)) : before.Idle sid after := by
  have first := Plane.exec_handles locks (by simp) sid
  have second := Plane.exec_handles pushes (by simp) sid
  have handles : after.handles sid = (before.handles sid).map fun handle =>
      { handle with ring := pushTrim handle.ring event, ringLocked := false } := by
    rw [second, first, Option.map_map]
    congr 1
    funext handle
    simp [Plane.effect]
  constructor
  · intro later found
    obtain ⟨handle, present, rfl⟩ := Option.map_eq_some_iff.mp (handles.symm.trans found)
    exact ⟨handle, present, rfl⟩
  · intro sound later found
    obtain ⟨handle, present, rfl⟩ := Option.map_eq_some_iff.mp (handles.symm.trans found)
    obtain ⟨registered, _, bounded⟩ := sound handle present
    exact ⟨Plane.exec_registry pushes (Plane.exec_registry locks registered), rfl, bounded⟩

end Actions

section Programs

variable {sid : String} {α : Type}

theorem idle_done (value : α) : (Proc.done value : Task α).Ensures machine (Plane.Idle sid) :=
  .done (Plane.Idle.refl sid) value

theorem idle_bind {β : Type} {task : Task α} {f : α → Task β}
    (head : task.Ensures machine (Plane.Idle sid))
    (tail : ∀ value, (f value).Ensures machine (Plane.Idle sid)) :
    (task >>= f).Ensures machine (Plane.Idle sid) :=
  .bind (Plane.Idle.trans sid) head tail

theorem idle_act {op : Op} {f : op.Ans → Task α} (idle : op ∈ idleOps sid)
    (tail : ∀ ans, (f ans).Ensures machine (Plane.Idle sid)) :
    (perform op >>= f).Ensures machine (Plane.Idle sid) :=
  .act (Plane.Idle.trans sid) (exec_idle idle) tail

theorem publish_idle (target : String) (event : StrategyEvent) :
    (publish target event).Ensures machine (Plane.Idle sid) := by
  unfold publish
  refine idle_act trivial fun seq => ?_
  by_cases here : target = sid
  · subst here
    intro before shared after alone
    obtain ⟨choice, _, locked, locks, alone⟩ := alone_perform.mp alone
    obtain ⟨other, _, pushed, pushes, alone⟩ := alone_perform.mp alone
    have sends : (perform (.send target (stamp event seq)) >>= fun _ =>
        Proc.done (stamp event seq)).Ensures machine (Plane.Idle target) :=
      idle_act trivial fun _ => idle_done _
    exact .trans _ _ _ _ (lock_push_idle choice other locks pushes) (sends _ _ _ alone)
  · refine idle_act here fun _ => ?_
    refine idle_act trivial fun _ => ?_
    exact idle_act trivial fun _ => idle_done _

theorem publishStateChange_idle (target : String) (source reached : SessionState) (reason : String) :
    (publishStateChange target source reached reason).Ensures machine (Plane.Idle sid) :=
  idle_bind (publish_idle target _) fun _ => idle_done _

theorem beginReconcile_idle (target : String) :
    (beginReconcile target).Ensures machine (Plane.Idle sid) := by
  unfold beginReconcile
  refine idle_act trivial fun registered => ?_
  split
  · refine idle_act trivial fun state => ?_
    split
    · refine idle_act trivial fun swapped => ?_
      split
      · exact idle_bind (publishStateChange_idle _ _ _ _) fun _ => idle_done _
      · exact idle_done _
    all_goals exact idle_done _
  · exact idle_done _

theorem completeReconcile_idle (target : String) (snapshotSequence : Nat) :
    (completeReconcile target snapshotSequence).Ensures machine (Plane.Idle sid) := by
  unfold completeReconcile
  refine idle_act trivial fun registered => ?_
  split
  · refine idle_act trivial fun _ => ?_
    refine idle_act trivial fun state => ?_
    split
    · refine idle_act trivial fun swapped => ?_
      split
      · exact idle_bind (publishStateChange_idle _ _ _ _) fun _ => idle_done _
      · exact idle_done _
    all_goals exact idle_done _
  · exact idle_done _

theorem reconcileState_idle (manager : SessionManager) (target : String) :
    (reconcileState manager target).Ensures machine (Plane.Idle sid) := by
  unfold reconcileState
  refine idle_bind (beginReconcile_idle target) fun begun => ?_
  split
  · exact idle_done _
  · refine idle_act trivial fun answer => ?_
    split
    · exact idle_done _
    · refine idle_bind (completeReconcile_idle target _) fun completed => ?_
      split
      · exact idle_done _
      · exact idle_done _

theorem cancelSessionOrders_idle (manager : SessionManager) (target : String) :
    (cancelSessionOrders manager target).Ensures machine (Plane.Idle sid) := by
  unfold cancelSessionOrders
  refine idle_act trivial fun coids => ?_
  have free : ∀ id, Op.cancelOrder manager.defaultExchange id ∈ idleOps sid := fun _ => trivial
  have cancels := cancelCoids_within free coids
  exact cancels.ensures (Plane.Idle.trans sid) (Plane.Idle.refl sid) fun op idle => exec_idle idle

theorem tripKillSwitch_idle (manager : SessionManager) (target : String) :
    (tripKillSwitch manager target).Ensures machine (Plane.Idle sid) := by
  have scope_idle : ∀ scope, (executeScope manager target scope).Ensures machine (Plane.Idle sid) := by
    intro scope
    cases scope with
    | sessionOrders => exact idle_bind (cancelSessionOrders_idle manager target) fun _ => idle_done _
    | allOrders => exact idle_act trivial fun _ => idle_done _
    | unspecified => exact idle_done _
    | none => exact idle_done _
  unfold tripKillSwitch
  refine idle_act trivial fun state => ?_
  split
  · refine idle_act trivial fun swapped => ?_
    split
    · exact idle_done _
    · refine idle_act trivial fun _ => ?_
      refine idle_bind (publishStateChange_idle _ _ _ _) fun _ => ?_
      exact idle_act trivial fun policy => scope_idle policy.scope
  · exact idle_done _

theorem checkLeaseExpiry_idle (manager : SessionManager) (target : String) :
    (checkLeaseExpiry manager target).Ensures machine (Plane.Idle sid) := by
  unfold checkLeaseExpiry
  refine idle_act trivial fun registered => ?_
  split
  · refine idle_act trivial fun policy => ?_
    refine idle_act trivial fun state => ?_
    split
    · refine idle_act trivial fun elapsed => ?_
      dsimp only [Proc.pure_eq, Proc.done_bind]
      split
      · exact idle_bind (tripKillSwitch_idle manager target) fun _ => idle_done _
      · exact idle_done _
    · exact idle_done _
  · exact idle_done _

theorem setKillSwitchPolicy_idle (target : String) (policy : Option KillSwitchPolicy) :
    (setKillSwitchPolicy target policy).Ensures machine (Plane.Idle sid) := by
  unfold setKillSwitchPolicy
  refine idle_act trivial fun registered => ?_
  split
  · split
    · exact idle_done _
    · exact idle_act trivial fun _ => idle_done _
  · exact idle_done _

end Programs

/-- The heartbeat clock of session `sid` was set to the instant of the call, and
the session stayed sound. -/
structure Plane.Beat (sid : String) (before after : Plane) : Prop where
  clock : ∀ later, after.handles sid = some later → later.lastSeen = before.now
  sound : before.Sound sid → after.Sound sid

theorem Plane.Beat.then_idle {sid : String} {first second third : Plane} (beat : first.Beat sid second)
    (idle : second.Idle sid third) : first.Beat sid third := by
  refine ⟨?_, idle.sound ∘ beat.sound⟩
  intro later found
  obtain ⟨handle, present, same⟩ := idle.clock later found
  exact same.trans (beat.clock handle present)

/-- A heartbeat of session `id`, which no other session notices. -/
structure Plane.Heartbeat (id : String) (before after : Plane) : Prop where
  own : before.Beat id after
  others : ∀ sid, id ≠ sid → before.Idle sid after

section Heartbeats

variable {manager : SessionManager} {sid : String} {before after : Plane}

theorem exec_touch (choice : Choice) {answer : Unit}
    (fires : before.exec (.touch sid) choice = some (answer, after)) : before.Beat sid after := by
  have handles := Plane.exec_handles fires (by simp) sid
  constructor
  · intro later found
    obtain ⟨handle, _, rfl⟩ := Option.map_eq_some_iff.mp (handles.symm.trans found)
    simp [Plane.effect]
  · intro sound later found
    obtain ⟨handle, present, rfl⟩ := Option.map_eq_some_iff.mp (handles.symm.trans found)
    obtain ⟨registered, free, bounded⟩ := sound handle present
    refine ⟨Plane.exec_registry fires registered, ?_, effect_bounded _ bounded⟩
    simpa [Plane.effect] using free

theorem keepAlive_lease {target : String} {answer : Except ManagerError Nat}
    (alone : Alone machine (keepAlive target) before answer after) :
    (∃ interval, answer = .ok interval ∧ before.Heartbeat target after) ∨
      ∃ error, answer = .error error ∧ after = before := by
  unfold keepAlive at alone
  replace alone := alone_get alone
  split at alone
  · left
    have others : ∀ sid, target ≠ sid → before.Idle sid after := by
      intro sid other
      have idle : (perform (.touch target) >>= fun _ =>
          perform (.heartbeatIntervalMs target) >>= fun interval =>
            (Proc.done (.ok interval) : Task (Except ManagerError Nat))).Ensures machine
          (Plane.Idle sid) :=
        idle_act other fun _ => idle_act trivial fun _ => idle_done _
      exact idle _ _ _ alone
    obtain ⟨choice, _, touched, touches, alone⟩ := alone_perform.mp alone
    obtain ⟨handle, _, alone⟩ := alone_read alone fun _ => rfl
    obtain ⟨rfl, rfl⟩ := alone_done.mp alone
    exact ⟨_, rfl, exec_touch choice touches, others⟩
  · right
    obtain ⟨rfl, rfl⟩ := alone_done.mp alone
    exact ⟨_, rfl, rfl⟩

theorem exec_insertSession {policy : SessionPolicy} (bounded : policy.leaseTimeout ≤ MAX_LEASE)
    {client : ClientIdentity} (choice : Choice) {id : String}
    (fires : before.exec (.insertSession policy client) choice = some (id, after)) :
    before.Heartbeat id after := by
  simp only [Plane.exec] at fires
  split at fires
  · split at fires
    · cases fires
    · obtain ⟨rfl, rfl⟩ := Prod.mk.inj (Option.some.inj fires)
      refine ⟨⟨?_, ?_⟩, fun sid other => ⟨?_, ?_⟩⟩
      · intro later found
        simp only [Plane.setHandle, Function.update_self, Option.some.injEq] at found
        subst found
        rfl
      · intro _ later found
        simp only [Plane.setHandle, Function.update_self, Option.some.injEq] at found
        subst found
        exact ⟨List.mem_cons_self, rfl, bounded⟩
      · intro later found
        simp only [Plane.setHandle, Function.update_of_ne (Ne.symm other)] at found
        exact ⟨later, found, rfl⟩
      · intro sound later found
        simp only [Plane.setHandle, Function.update_of_ne (Ne.symm other)] at found
        obtain ⟨registered, rest⟩ := sound later found
        exact ⟨List.mem_cons_of_mem _ registered, rest⟩
  · cases fires

theorem attachFresh_lease {policy : Option KillSwitchPolicy} {client : ClientIdentity}
    {answer : Except ManagerError (String × Nat)}
    (alone : Alone machine (attachFresh policy client) before answer after) :
    (∃ id interval, answer = .ok (id, interval) ∧ before.Heartbeat id after) ∨
      ∃ error, answer = .error error ∧ after = before := by
  have inserted : ∀ sessionPolicy : SessionPolicy, sessionPolicy.leaseTimeout ≤ MAX_LEASE →
      Alone machine (perform (.insertSession sessionPolicy client) >>= fun id =>
        (Proc.done (.ok (id, DEFAULT_HEARTBEAT_MS)) : Task (Except ManagerError (String × Nat))))
        before answer after →
      ∃ id interval, answer = .ok (id, interval) ∧ before.Heartbeat id after := by
    intro sessionPolicy bounded inserting
    obtain ⟨choice, id, middle, inserts, ended⟩ := alone_perform.mp inserting
    obtain ⟨rfl, rfl⟩ := alone_done.mp ended
    exact ⟨id, _, rfl, exec_insertSession bounded choice inserts⟩
  unfold attachFresh at alone
  cases policy with
  | none => exact .inl (inserted default (by decide) alone)
  | some policy =>
    have bounded : (applyPolicy default policy).1.leaseTimeout ≤ MAX_LEASE :=
      applyPolicy_bounded (by decide) policy
    dsimp only at alone
    generalize applyPolicy default policy = applied at alone bounded
    obtain ⟨sessionPolicy, error | _⟩ := applied
    · obtain ⟨rfl, rfl⟩ := alone_done.mp alone
      exact .inr ⟨error, rfl, rfl⟩
    · exact .inl (inserted sessionPolicy bounded alone)

/-- How a reconnect ends once its policy was accepted. -/
theorem heartbeat_answered {target : String} {answer : Except ManagerError (String × Nat)}
    (alone : Alone machine (perform (.heartbeatIntervalMs target) >>= fun heartbeat =>
      (Proc.done (.ok (target, heartbeat)) : Task (Except ManagerError (String × Nat))))
      before answer after) :
    after = before ∧ ∀ id interval, answer = .ok (id, interval) → id = target := by
  obtain ⟨handle, _, rest⟩ := alone_read alone fun _ => rfl
  obtain ⟨rfl, rfl⟩ := alone_done.mp rest
  refine ⟨rfl, ?_⟩
  intro id interval same
  exact (Prod.mk.inj (Except.ok.inj same)).1.symm

/-- An accepted reconnect is a heartbeat of the session it names, and no
reconnect concerns another one. -/
theorem reconnect_lease {quoted : String → String} {target : String} {policy : Option KillSwitchPolicy} {client : ClientIdentity}
    {answer : Except ManagerError (String × Nat)}
    (alone : Alone machine (reconnect quoted target policy client) before answer after) :
    (before.handles target).isSome = true ∧ (∀ sid, target ≠ sid → before.Idle sid after) ∧
      ∀ id interval, answer = .ok (id, interval) → id = target ∧ before.Beat target after := by
  unfold reconnect at alone
  obtain ⟨handle, present, decided⟩ := alone_read alone fun _ => rfl
  refine ⟨by simp [present], ?_⟩
  split at decided
  case h_1 | h_2 | h_6 =>
    obtain ⟨rfl, rfl⟩ := alone_done.mp decided
    exact ⟨fun sid _ => .refl sid _, by simp⟩
  all_goals
    obtain ⟨reader, _, identified⟩ := alone_read decided fun _ => rfl
    split at identified
    · obtain ⟨rfl, rfl⟩ := alone_done.mp identified
      exact ⟨fun sid _ => .refl sid _, by simp⟩
    · obtain ⟨choice, _, touched, touches, rest⟩ := alone_perform.mp identified
      have ⟨idle, named⟩ : (∀ sid, touched.Idle sid after) ∧
          ∀ id interval, answer = .ok (id, interval) → id = target := by
        cases policy with
        | none =>
          obtain ⟨rfl, named⟩ := heartbeat_answered rest
          exact ⟨fun sid => .refl sid _, named⟩
        | some policy =>
          obtain ⟨turn, updated, changed, updates, last⟩ := alone_perform.mp rest
          have idle : ∀ sid, touched.Idle sid changed := fun sid =>
            exec_idle (show Op.updatePolicy target policy ∈ idleOps sid from trivial) turn _ _ _ updates
          cases updated with
          | error error =>
            obtain ⟨rfl, rfl⟩ := alone_done.mp last
            exact ⟨idle, by simp⟩
          | ok _ =>
            obtain ⟨rfl, named⟩ := heartbeat_answered last
            exact ⟨idle, named⟩
      constructor
      · intro sid other
        have away : Op.touch target ∈ idleOps sid := other
        exact .trans _ _ _ _ (exec_idle away choice _ _ _ touches) (idle sid)
      · intro id interval accepted
        exact ⟨named id interval accepted, (exec_touch choice touches).then_idle (idle target)⟩

theorem attachWithReconnect_lease {token target : String} {policy : Option KillSwitchPolicy}
    {client : ClientIdentity} {answer : Except ManagerError (String × Nat)}
    (alone : Alone machine (attachWithReconnect manager token policy target client) before answer after) :
    (∃ id interval, answer = .ok (id, interval) ∧ before.Heartbeat id after) ∨
      ∃ error, answer = .error error ∧ ((before.handles target).isSome = true ∨ after = before) := by
  have fresh : Alone machine (attachFresh policy client) before answer after →
      (∃ id interval, answer = .ok (id, interval) ∧ before.Heartbeat id after) ∨
        ∃ error, answer = .error error ∧ ((before.handles target).isSome = true ∨ after = before) := by
    intro attached
    rcases attachFresh_lease attached with accepted | ⟨error, refused, same⟩
    · exact .inl accepted
    · exact .inr ⟨error, refused, .inr same⟩
  unfold attachWithReconnect at alone
  split at alone
  · obtain ⟨rfl, rfl⟩ := alone_done.mp alone
    exact .inr ⟨_, rfl, .inr rfl⟩
  · split at alone
    · exact fresh alone
    · have decided := alone_get alone
      split at decided
      · obtain ⟨present, idle, beat⟩ := reconnect_lease decided
        cases answer with
        | error error => exact .inr ⟨error, rfl, .inl present⟩
        | ok accepted =>
          obtain ⟨id, interval⟩ := accepted
          obtain ⟨rfl, beaten⟩ := beat id interval rfl
          exact .inl ⟨id, interval, rfl, ⟨beaten, idle⟩⟩
      · exact fresh decided

end Heartbeats

/-- What one call of a run does to the lease of a session: an accepted heartbeat
sets the clock, and every other call leaves it alone. -/
theorem Call.lease_step {manager : SessionManager} {call : Call} {outcome : Outcome}
    {before after : Plane} (alone : Alone machine (call.task manager) before outcome after)
    (concerns : call.concernsLease = true)
    (accepted : Visit.refusesReconnect ⟨call, outcome, before, after⟩ = false) (sid : String) :
    if Visit.beats sid ⟨call, outcome, before, after⟩ then before.Beat sid after
    else before.Idle sid after := by
  cases call with
  | attach token policy target client =>
    obtain ⟨answer, attached, rfl⟩ := alone_map.mp alone
    rcases attachWithReconnect_lease attached with ⟨id, interval, rfl, heartbeat⟩ | ⟨error, rfl, kept⟩
    · by_cases same : id = sid
      · subst same
        simpa [Visit.beats] using heartbeat.own
      · simpa [Visit.beats, same] using heartbeat.others sid same
    · rcases kept with present | rfl
      · simp [Visit.refusesReconnect, present] at accepted
      · exact .refl sid _
  | keepAlive target =>
    obtain ⟨answer, kept, rfl⟩ := alone_map.mp alone
    rcases keepAlive_lease kept with ⟨interval, rfl, heartbeat⟩ | ⟨error, rfl, rfl⟩
    · by_cases same : target = sid
      · subst same
        simpa [Visit.beats] using heartbeat.own
      · simpa [Visit.beats, same] using heartbeat.others sid same
    · exact .refl sid _
  | setKillSwitchPolicy target policy =>
    obtain ⟨answer, set, rfl⟩ := alone_map.mp alone
    exact setKillSwitchPolicy_idle target policy _ _ _ set
  | beginReconcile target =>
    obtain ⟨answer, begun, rfl⟩ := alone_map.mp alone
    exact beginReconcile_idle target _ _ _ begun
  | completeReconcile target snapshotSequence =>
    obtain ⟨answer, completed, rfl⟩ := alone_map.mp alone
    exact completeReconcile_idle target snapshotSequence _ _ _ completed
  | reconcileState target =>
    obtain ⟨answer, reconciled, rfl⟩ := alone_map.mp alone
    exact reconcileState_idle manager target _ _ _ reconciled
  | checkLeaseExpiry target =>
    obtain ⟨answer, checked, rfl⟩ := alone_map.mp alone
    exact checkLeaseExpiry_idle manager target _ _ _ checked
  | timePasses elapsed =>
    obtain ⟨_, passed, rfl⟩ := alone_map.mp alone
    have idle : (perform (.advanceClock elapsed) >>= Proc.done).Ensures machine (Plane.Idle sid) :=
      idle_act trivial fun _ => idle_done _
    exact idle _ _ _ passed
  | _ => cases concerns

section Runs

variable {manager : SessionManager} {visits : List Visit} {initial plane : Plane}

/-- Along a run every session is sound, and its clock shows its last heartbeat. -/
theorem Sequential.lease (run : Sequential manager initial visits plane)
    (vacant : ∀ sid, initial.handles sid = none)
    (concern : ∀ visit ∈ visits, visit.call.concernsLease = true)
    (accepted : ∀ visit ∈ visits, visit.refusesReconnect = false) (sid : String) :
    plane.Sound sid ∧ ∀ handle, plane.handles sid = some handle →
      lastHeartbeat sid visits = some handle.lastSeen := by
  induction run with
  | start =>
    constructor
    · intro handle found
      rw [vacant sid] at found
      cases found
    · intro handle found
      rw [vacant sid] at found
      cases found
  | @visit visits call outcome before after earlier alone ih =>
    obtain ⟨sound, clock⟩ := ih (fun visit member => concern visit (by simp [member]))
      (fun visit member => accepted visit (by simp [member]))
    have step := call.lease_step alone (concern ⟨call, outcome, before, after⟩ (by simp))
      (accepted _ (by simp)) sid
    unfold lastHeartbeat at clock ⊢
    rw [lastInstant_snoc]
    split at step
    · rename_i beats
      refine ⟨step.sound sound, ?_⟩
      intro handle found
      rw [if_pos beats, step.clock handle found]
      rfl
    · rename_i quiet
      refine ⟨step.sound sound, ?_⟩
      intro handle found
      obtain ⟨old, present, same⟩ := step.clock handle found
      rw [if_neg quiet, same]
      exact clock old present

end Runs

end LongTrader.Session
