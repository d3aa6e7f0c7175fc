import LongTrader.Session.Service

/-! What a refused policy and a refused reconnect leave of a session. A policy is parsed field
by field into the session's own, and a reconnect refreshes the lease before it does so. -/

namespace LongTrader.Session

open Interleave

/-- A message with a lease that is accepted, and is not the one in force, next to a scope that is
not known. -/
def SessionPolicy.takesHalf (current : SessionPolicy) (policy : KillSwitchPolicy) : Prop :=
  ∃ timeout lease value, policy.leaseTimeout = some timeout ∧
    leaseTimeoutFromProto timeout = .ok lease ∧ lease ≠ current.leaseTimeout ∧
    policy.scope = .unknown value

theorem applyPolicy_unchanged_iff {current : SessionPolicy} {policy : KillSwitchPolicy}
    {error : ManagerError} (refused : (applyPolicy current policy).2 = .error error) :
    (applyPolicy current policy).1 = current ↔ ¬ current.takesHalf policy := by
  obtain ⟨leaseTimeout, scope⟩ := policy
  cases leaseTimeout with
  | none =>
    have whole : ¬ current.takesHalf ⟨none, scope⟩ := by
      rintro ⟨timeout, lease, value, present, _⟩
      cases present
    refine iff_of_true ?_ whole
    rcases scope with (_ | _ | _ | _) | value
    all_goals first
      | rfl
      | cases refused
  | some timeout =>
    cases parsed : leaseTimeoutFromProto timeout with
    | error problem =>
      have whole : ¬ current.takesHalf ⟨some timeout, scope⟩ := by
        rintro ⟨_, lease, value, present, accepted, _⟩
        obtain rfl := Option.some.inj present
        rw [parsed] at accepted
        cases accepted
      refine iff_of_true ?_ whole
      simp [applyPolicy, parsed, Except.map]
    | ok lease =>
      rcases scope with known | value
      · cases known
        all_goals simp [applyPolicy, parsed, Except.map] at refused
      · have moved : (applyPolicy current ⟨some timeout, .unknown value⟩).1 =
            { current with leaseTimeout := lease } := by
          simp [applyPolicy, parsed, Except.map]
        rw [moved]
        constructor
        · rintro same ⟨_, other, _, present, accepted, different, _⟩
          obtain rfl := Option.some.inj present
          obtain rfl := Except.ok.inj (parsed.symm.trans accepted)
          exact different (congrArg SessionPolicy.leaseTimeout same)
        · intro whole
          by_contra changed
          refine whole ⟨timeout, lease, value, rfl, parsed, ?_, rfl⟩
          rintro rfl
          exact changed rfl

/-- A session that a client may come back to: it is live, and the client does not contradict the
one that attached it. -/
def SessionHandle.mayReconnect (handle : SessionHandle) (quoted : String → String) (sid : String)
    (client : ClientIdentity) : Prop :=
  (SessionState.fromU8 handle.state).any (fun state => !state.isTerminal) = true ∧
    assertReconnectClient quoted sid handle.client client = .ok ()

section Calls

variable {manager : SessionManager} {sid : String} {before after : Plane}

theorem reconnect_refused {policy : Option KillSwitchPolicy} {client : ClientIdentity}
    {error : ManagerError}
    (alone : Alone machine (reconnect manager.quoted sid policy client) before (.error error) after) :
    ∃ handle, before.handles sid = some handle ∧
      ((¬ handle.mayReconnect manager.quoted sid client ∧ after = before) ∨
        (handle.mayReconnect manager.quoted sid client ∧ ∃ message, policy = some message ∧
          (applyPolicy handle.policy message).2 = .error error ∧
          after = before.setHandle sid { handle with
            lastSeen := before.now, policy := (applyPolicy handle.policy message).1 })) := by
  unfold reconnect at alone
  obtain ⟨handle, found, decided⟩ := alone_read alone fun _ => rfl
  generalize decoded : SessionState.fromU8 handle.state = state at decided
  refine ⟨handle, found, ?_⟩
  split at decided
  case h_1 | h_2 | h_6 =>
    obtain ⟨_, rfl⟩ := alone_done.mp decided
    refine .inl ⟨?_, rfl⟩
    rintro ⟨live, _⟩
    rw [decoded] at live
    cases live
  all_goals
    obtain ⟨reader, held, identified⟩ := alone_read decided fun _ => rfl
    obtain rfl := Option.some.inj (found.symm.trans held)
    split at identified
    · rename_i contradicted
      obtain ⟨_, rfl⟩ := alone_done.mp identified
      refine .inl ⟨?_, rfl⟩
      rintro ⟨_, accepted⟩
      rw [contradicted] at accepted
      cases accepted
    · rename_i accepted
      refine .inr ⟨⟨by rw [decoded]; rfl, accepted⟩, ?_⟩
      obtain ⟨choice, _, touched, touches, rest⟩ := alone_perform.mp identified
      obtain ⟨toucher, held, same⟩ := Option.map_eq_some_iff.mp touches
      obtain rfl := Option.some.inj (found.symm.trans held)
      obtain ⟨_, rfl⟩ := Prod.mk.inj same
      cases policy with
      | none =>
        obtain ⟨_, heartbeat, asked, _, last⟩ := alone_perform.mp rest
        cases (alone_done.mp last).1
      | some message =>
        obtain ⟨turn, updated, changed, updates, last⟩ := alone_perform.mp rest
        simp only [Plane.exec, Plane.setHandle, Function.update_self] at updates
        obtain ⟨answer, rfl⟩ := Prod.mk.inj (Option.some.inj updates)
        refine ⟨message, rfl, ?_⟩
        cases updated with
        | error problem =>
          obtain ⟨same, rfl⟩ := alone_done.mp last
          obtain rfl := Except.error.inj same
          refine ⟨answer, ?_⟩
          simp [Plane.setHandle]
        | ok _ =>
          obtain ⟨_, heartbeat, asked, _, ended⟩ := alone_perform.mp last
          cases (alone_done.mp ended).1

theorem setKillSwitchPolicy_refused {policy : Option KillSwitchPolicy} {error : ManagerError}
    (alone : Alone machine (setKillSwitchPolicy sid policy) before (.error error) after) :
    (sid ∉ before.registry ∧ after = before) ∨
      ∃ message handle, policy = some message ∧ sid ∈ before.registry ∧
        before.handles sid = some handle ∧ (applyPolicy handle.policy message).2 = .error error ∧
        after = before.setHandle sid { handle with policy := (applyPolicy handle.policy message).1 } := by
  unfold setKillSwitchPolicy at alone
  have decided := alone_get alone
  split at decided
  · rename_i present
    cases policy with
    | none => cases (alone_done.mp decided).1
    | some message =>
      obtain ⟨choice, answer, changed, updates, last⟩ := alone_perform.mp decided
      obtain ⟨rfl, rfl⟩ := alone_done.mp last
      simp only [Plane.exec] at updates
      split at updates
      · cases updates
      · rename_i handle found
        obtain ⟨refused, rfl⟩ := Prod.mk.inj (Option.some.inj updates)
        exact .inr ⟨message, handle, rfl, of_decide_eq_true present, found, refused, rfl⟩
  · rename_i absent
    obtain ⟨_, rfl⟩ := alone_done.mp decided
    exact .inl ⟨fun member => absent (decide_eq_true member), rfl⟩

theorem attachFresh_refused {policy : Option KillSwitchPolicy} {client : ClientIdentity}
    {error : ManagerError} (alone : Alone machine (attachFresh policy client) before (.error error) after) :
    after = before := by
  unfold attachFresh at alone
  cases policy with
  | none =>
    obtain ⟨_, id, _, _, ended⟩ := alone_perform.mp alone
    cases (alone_done.mp ended).1
  | some message =>
    dsimp only at alone
    generalize applyPolicy default message = applied at alone
    obtain ⟨sessionPolicy, problem | _⟩ := applied
    · exact (alone_done.mp alone).2.symm
    · obtain ⟨_, id, _, _, ended⟩ := alone_perform.mp alone
      cases (alone_done.mp ended).1

theorem attachWithReconnect_refused {token : String} {policy : Option KillSwitchPolicy}
    {client : ClientIdentity} {error : ManagerError}
    (alone : Alone machine (attachWithReconnect manager token policy sid client) before
      (.error error) after) :
    ((manager.refusesToken token = true ∨ sid = "" ∨ sid ∉ before.registry) ∧ after = before) ∨
      (manager.refusesToken token = false ∧ sid ≠ "" ∧ sid ∈ before.registry ∧
        Alone machine (reconnect manager.quoted sid policy client) before (.error error) after) := by
  unfold attachWithReconnect at alone
  split at alone
  · rename_i refused
    exact .inl ⟨.inl refused, (alone_done.mp alone).2.symm⟩
  · rename_i accepted
    split at alone
    · rename_i fresh
      exact .inl ⟨.inr (.inl fresh), attachFresh_refused alone⟩
    · rename_i named
      have decided := alone_get alone
      split at decided
      · rename_i present
        exact .inr ⟨by simpa using accepted, named, of_decide_eq_true present, decided⟩
      · rename_i absent
        refine .inl ⟨.inr (.inr ?_), attachFresh_refused decided⟩
        exact fun member => absent (decide_eq_true member)

end Calls

def Call.carriesPolicy : Call → Bool
  | .attach _ (some _) _ _ | .setKillSwitchPolicy _ (some _) => true
  | _ => false

def Outcome.refused : Outcome → Bool
  | .attached (.error _) | .policySet (.error _) => true
  | _ => false

/-- The calls that get as far as parsing their message into the policy of a session. -/
inductive Call.Applies (manager : SessionManager) (plane : Plane) :
    Call → SessionHandle → KillSwitchPolicy → Prop where
  | set {sid : String} {handle : SessionHandle} {policy : KillSwitchPolicy}
      (registered : sid ∈ plane.registry) (found : plane.handles sid = some handle) :
      Applies manager plane (.setKillSwitchPolicy sid (some policy)) handle policy
  | reconnect {token sid : String} {client : ClientIdentity} {handle : SessionHandle}
      {policy : KillSwitchPolicy} (accepted : manager.refusesToken token = false) (named : sid ≠ "")
      (registered : sid ∈ plane.registry) (found : plane.handles sid = some handle)
      (welcome : handle.mayReconnect manager.quoted sid client) :
      Applies manager plane (.attach token (some policy) sid client) handle policy

section Refusals

variable {manager : SessionManager} {before after : Plane}

theorem policies_setHandle_iff {sid : String} {handle changed : SessionHandle}
    (found : before.handles sid = some handle) :
    (∀ other, ((before.setHandle sid changed).handles other).map (·.policy) =
        (before.handles other).map (·.policy)) ↔ changed.policy = handle.policy := by
  constructor
  · intro unchanged
    have here := unchanged sid
    rw [found] at here
    simpa [Plane.setHandle] using here
  · intro same other
    by_cases here : other = sid
    · subst here
      simp [Plane.setHandle, found, same]
    · simp [Plane.setHandle, Function.update_of_ne here]

/-- A refused policy leaves every session's policy as it was, exactly when it was not half good for
the session it was parsed into. -/
theorem rejected_policy_atomic_iff {call : Call} {outcome : Outcome}
    (ran : Alone machine (call.task manager) before outcome after)
    (carries : call.carriesPolicy = true) (refused : outcome.refused = true) :
    (∀ sid, (after.handles sid).map (·.policy) = (before.handles sid).map (·.policy)) ↔
      ∀ handle policy, call.Applies manager before handle policy →
        ¬ handle.policy.takesHalf policy := by
  cases call with
  | setKillSwitchPolicy sid policy =>
    obtain ⟨answer, alone, rfl⟩ := alone_map.mp ran
    obtain ⟨error, rfl⟩ : ∃ error, answer = .error error := by
      cases answer with
      | error error => exact ⟨error, rfl⟩
      | ok _ => cases refused
    rcases setKillSwitchPolicy_refused alone with ⟨absent, rfl⟩ | ⟨message, handle, rfl, registered, found, problem, rfl⟩
    · refine iff_of_true (fun _ => rfl) ?_
      rintro handle policy (⟨registered, _⟩ | _)
      exact absurd registered absent
    · rw [policies_setHandle_iff found, applyPolicy_unchanged_iff problem]
      constructor
      · rintro whole _ _ (⟨_, held⟩ | _)
        obtain rfl := Option.some.inj (found.symm.trans held)
        exact whole
      · intro whole
        exact whole handle message (.set registered found)
  | attach token policy sid client =>
    obtain ⟨answer, alone, rfl⟩ := alone_map.mp ran
    obtain ⟨error, rfl⟩ : ∃ error, answer = .error error := by
      cases answer with
      | error error => exact ⟨error, rfl⟩
      | ok _ => cases refused
    rcases attachWithReconnect_refused alone with ⟨turned, rfl⟩ | ⟨accepted, named, registered, reached⟩
    · refine iff_of_true (fun _ => rfl) ?_
      rintro handle policy (_ | ⟨accepted, named, registered, _, _⟩)
      rcases turned with unknown | fresh | absent
      · rw [accepted] at unknown
        cases unknown
      · exact absurd fresh named
      · exact absurd registered absent
    · obtain ⟨handle, found, ⟨unwelcome, rfl⟩ | ⟨welcome, message, rfl, problem, rfl⟩⟩ :=
        reconnect_refused reached
      · refine iff_of_true (fun _ => rfl) ?_
        rintro _ policy (_ | ⟨_, _, _, held, welcome⟩)
        obtain rfl := Option.some.inj (found.symm.trans held)
        exact absurd welcome unwelcome
      · rw [policies_setHandle_iff found, applyPolicy_unchanged_iff problem]
        constructor
        · rintro whole _ _ (_ | ⟨_, _, _, held, _⟩)
          obtain rfl := Option.some.inj (found.symm.trans held)
          exact whole
        · intro whole
          exact whole handle message (.reconnect accepted named registered found welcome)
  | _ => cases carries

/-- A lease of one second next to an unknown scope: the message is refused, and the lease is in
force. -/
theorem rejected_policy_half_applied :
    ∃ outcome after, Alone machine
        ((Call.setKillSwitchPolicy "s1" (some ⟨some ⟨1, 0⟩, .unknown 9⟩)).task mockManager)
        (.single (.inState .active [])) outcome after ∧
      outcome.refused = true ∧
      ((Plane.single (.inState .active [])).handles "s1").map (·.policy) = some ⟨30000, .sessionOrders⟩ ∧
      (after.handles "s1").map (·.policy) = some ⟨1000, .sessionOrders⟩ :=
  Alone.exists_of_solo [.none, .none] (by decide +kernel)

theorem rejected_policy_atomic_out_of_bounds :
    ∃ outcome after, Alone machine
        ((Call.setKillSwitchPolicy "s1" (some ⟨some ⟨0, 0⟩, .unknown 9⟩)).task mockManager)
        (.single (.inState .active [])) outcome after ∧
      outcome.refused = true ∧ ∀ sid, (after.handles sid).map (·.policy) =
        ((Plane.single (.inState .active [])).handles sid).map (·.policy) := by
  obtain ⟨outcome, after, ran, refused⟩ :
      ∃ outcome after, Alone machine
          ((Call.setKillSwitchPolicy "s1" (some ⟨some ⟨0, 0⟩, .unknown 9⟩)).task mockManager)
          (.single (.inState .active [])) outcome after ∧ outcome.refused = true :=
    Alone.exists_of_solo [.none, .none] (by decide +kernel)
  refine ⟨outcome, after, ran, refused, (rejected_policy_atomic_iff ran rfl refused).mpr ?_⟩
  rintro handle policy (_ | _) ⟨timeout, lease, value, present, accepted, _⟩
  obtain rfl := Option.some.inj present
  cases accepted

structure SessionHandle.Untouched (before after : SessionHandle) : Prop where
  lastSeen : after.lastSeen = before.lastSeen
  policy : after.policy = before.policy
  state : after.state = before.state
  client : after.client = before.client
  trackedCoids : after.trackedCoids = before.trackedCoids

/-- A refused reconnect leaves its session untouched, exactly when it was refused before it came to
the policy, or the session was last seen at this very instant and the policy was not half good. -/
theorem refused_reconnect_untouched_iff {token sid : String} {policy : Option KillSwitchPolicy}
    {client : ClientIdentity} {error : ManagerError} {handle : SessionHandle}
    (ran : Alone machine (attachWithReconnect manager token policy sid client) before (.error error) after)
    (named : sid ≠ "") (registered : sid ∈ before.registry) (found : before.handles sid = some handle) :
    (∃ later, after.handles sid = some later ∧ handle.Untouched later) ↔
      (manager.refusesToken token = false → handle.mayReconnect manager.quoted sid client →
        handle.lastSeen = before.now ∧
          ∀ message, policy = some message → ¬ handle.policy.takesHalf message) := by
  rcases attachWithReconnect_refused ran with ⟨turned, rfl⟩ | ⟨accepted, _, _, reached⟩
  · refine iff_of_true ⟨handle, found, ⟨rfl, rfl, rfl, rfl, rfl⟩⟩ fun accepted => ?_
    rcases turned with unknown | fresh | absent
    · rw [accepted] at unknown
      cases unknown
    · exact absurd fresh named
    · exact absurd registered absent
  · obtain ⟨_, held, ⟨unwelcome, rfl⟩ | ⟨welcome, message, rfl, problem, rfl⟩⟩ :=
      reconnect_refused reached
    · obtain rfl := Option.some.inj (found.symm.trans held)
      refine iff_of_true ⟨handle, found, ⟨rfl, rfl, rfl, rfl, rfl⟩⟩ fun _ welcome => ?_
      exact absurd welcome unwelcome
    · obtain rfl := Option.some.inj (found.symm.trans held)
      constructor
      · rintro ⟨later, present, untouched⟩ _ _
        simp only [Plane.setHandle, Function.update_self, Option.some.injEq] at present
        subst present
        refine ⟨untouched.lastSeen.symm, ?_⟩
        intro other same
        obtain rfl := Option.some.inj same
        exact (applyPolicy_unchanged_iff problem).mp untouched.policy
      · intro meets
        obtain ⟨instant, whole⟩ := meets accepted welcome
        refine ⟨_, by simp only [Plane.setHandle, Function.update_self]; rfl, ?_⟩
        exact ⟨instant.symm, (applyPolicy_unchanged_iff problem).mpr (whole message rfl), rfl, rfl, rfl⟩

def idlePlane : Plane :=
  { Plane.single { SessionHandle.inState .active ["o1"] with client := ⟨"alpha", "1"⟩ } with
    now := 20000000000 }

/-- A reconnect that is refused for its policy has already refreshed the lease. -/
theorem refused_reconnect_touches :
    ∃ answer after, Alone machine
        (attachWithReconnect mockManager "" (some ⟨none, .unknown 9⟩) "s1" ⟨"alpha", "1"⟩) idlePlane
        answer after ∧
      answer = .error (.invalidArgument "unknown KillSwitchPolicy scope discriminant 9") ∧
      (idlePlane.handles "s1").map (·.lastSeen) = some 0 ∧
      (after.handles "s1").map (·.lastSeen) = some 20000000000 :=
  Alone.exists_of_solo [.none, .none, .none, .none, .none] (by decide +kernel)

theorem refused_reconnect_untouched_contradicted :
    ∃ error after handle, Alone machine
        (attachWithReconnect mockManager "" (some ⟨none, .unknown 9⟩) "s1" ⟨"beta", "1"⟩) idlePlane
        (.error error) after ∧
      idlePlane.handles "s1" = some handle ∧
      ∃ later, after.handles "s1" = some later ∧ handle.Untouched later := by
  obtain ⟨answer, after, ran, refused⟩ :
      ∃ answer after, Alone machine
          (attachWithReconnect mockManager "" (some ⟨none, .unknown 9⟩) "s1" ⟨"beta", "1"⟩) idlePlane
          answer after ∧
        answer = .error (.invalidArgument ("session s1 was attached by client_name \"alpha\"; " ++
          "\"beta\" may not reconnect to it")) :=
    Alone.exists_of_solo [.none, .none, .none] (by decide +kernel)
  subst refused
  refine ⟨_, after, _, ran, rfl, ?_⟩
  refine (refused_reconnect_untouched_iff ran (by decide) (by decide) rfl).mpr ?_
  rintro _ ⟨_, welcome⟩
  cases welcome

end Refusals

end LongTrader.Session
