import LongTrader.Session.Transitions

/-! The history of one session: its transitions are a trail through the lifecycle
graph, and each of them is announced once. -/

namespace LongTrader.Session

open Interleave

/-- A trail through the lifecycle graph, as the list of its transitions. -/
inductive Trail (source : SessionState) :
    List (SessionState × SessionState) → SessionState → Prop where
  | start : Trail source [] source
  | step (earlier : Trail source moves middle) (edge : SessionState.Edge middle target) :
      Trail source (moves ++ [(middle, target)]) target

theorem Trail.edge {source target : SessionState} {moves : List (SessionState × SessionState)}
    (trail : Trail source moves target) : ∀ move ∈ moves, SessionState.Edge move.1 move.2 := by
  induction trail with
  | start => simp
  | step earlier edge ih =>
    intro move member
    rcases List.mem_append.mp member with old | new
    · exact ih move old
    · obtain rfl := List.mem_singleton.mp new
      exact edge

/-- The state a session starts from: the one it is in, or ATTACHED when it is still
to be attached. -/
def Plane.origin (plane : Plane) (sid : String) : Option SessionState :=
  match plane.handles sid with
  | none => some .attached
  | some handle => SessionState.fromU8 handle.state

/-- The transitions of session `sid` along a history, in their order. -/
abbrev transitions {ι : Type} (sid : String) (history : List (Entry sig ι)) :
    List (SessionState × SessionState) :=
  shown (transition sid) history

/-- Whatever the interleaving, the transitions of a session form a trail that ends
in the state the session is in. -/
theorem transitions_trail {ι : Type} {manager : SessionManager} {calls : ι → Call} {sid : String}
    {history : List (Entry sig ι)} {before after : machine.State} {source : SessionState}
    (execution : Execution machine (Permitted manager calls) before history after)
    (starts : Plane.origin before sid = some source) :
    ∃ target, Plane.origin after sid = some target ∧
      Trail source (transitions sid history) target := by
  induction execution with
  | start => exact ⟨source, starts, .start⟩
  | @step history task op ans last after earlier choice fires meets ih =>
    obtain ⟨middle, current, trail⟩ := ih
    have extended : transitions sid (history ++ [Entry.of task op ans]) =
        transitions sid history ++ (transition sid ⟨op, ans⟩).toList := by
      unfold transitions
      rw [shown_append]
      cases moved : transition sid ⟨op, ans⟩ <;> simp [shown, moved]
    rw [extended]
    cases present : Plane.handles last sid with
    | none =>
      obtain rfl : SessionState.attached = middle := by
        simpa [Plane.origin, present] using current
      refine ⟨.attached, ?_, by simpa [Plane.exec_absent fires present] using trail⟩
      cases found : Plane.handles after sid with
      | none => simp [Plane.origin, found]
      | some handle =>
        obtain ⟨policy, client, _, rfl⟩ := Plane.exec_new_handle fires present found
        simp [Plane.origin, found, SessionHandle.attach]
    | some handle =>
      have kept := Plane.exec_keeps_handle fires present
      have decoded : Plane.sessionState last sid = some middle := by
        simpa [Plane.sessionState, Plane.origin, present] using current
      have same : Plane.origin after sid = Plane.sessionState after sid := by
        simp [Plane.sessionState, Plane.origin, kept]
      rw [same]
      rcases Plane.exec_sessionState fires present with
        ⟨still, unchanged⟩ | ⟨start, target, swap, left, reached⟩
      · exact ⟨middle, unchanged.trans decoded, by simpa [still] using trail⟩
      · obtain ⟨rfl, answered⟩ := Act.mk.inj swap
        obtain rfl := eq_of_heq answered
        obtain rfl := Option.some.inj (left.symm.trans decoded)
        have edge : SessionState.Edge start target := meets.1
        exact ⟨target, reached, by simpa [transition] using trail.step edge⟩

/-- The transition that an event announces, if any. -/
def stateChangeOf (event : StrategyEvent) : Option (SessionState × SessionState) :=
  match event.event with
  | some (.stateChange change) => some (change.source, change.target)
  | _ => none

/-- The transition of `sid` announced in its replay ring by an action. -/
def recorded (sid : String) : Act sig → Option (SessionState × SessionState)
  | ⟨.pushRing target event, _⟩ => if target = sid then stateChangeOf event else none
  | _ => none

/-- The transition of `sid` announced to its subscribers by an action. -/
def broadcast (sid : String) : Act sig → Option (SessionState × SessionState)
  | ⟨.send target event, _⟩ => if target = sid then stateChangeOf event else none
  | _ => none

/-- The actions that neither move a session nor announce a transition. -/
def quiet : Set Op :=
  {op | match op with
    | .cas _ _ _ => False
    | .pushRing _ event => stateChangeOf event = none
    | .send _ event => stateChangeOf event = none
    | _ => True}

section Announcing

variable {sid : String} {seen : Act sig → Option (SessionState × SessionState)}
  (view : seen = recorded sid ∨ seen = broadcast sid)

theorem quiet_transition {act : Act sig} (silent : act.op ∈ quiet) : transition sid act = none := by
  obtain ⟨op, ans⟩ := act
  cases op
  case cas => cases silent
  all_goals rfl

include view

theorem quiet_seen {act : Act sig} (silent : act.op ∈ quiet) : seen act = none := by
  obtain ⟨op, ans⟩ := act
  rcases view with rfl | rfl
  · cases op
    case pushRing target event =>
      simp only [recorded]
      split
      · exact silent
      · rfl
    all_goals rfl
  · cases op
    case send target event =>
      simp only [broadcast]
      split
      · exact silent
      · rfl
    all_goals rfl

theorem quiet_settles {acts : List (Act sig)} (silent : ∀ act ∈ acts, act.op ∈ quiet) :
    Settles (transition sid) seen acts :=
  .silent (fun act member => quiet_transition (silent act member))
    (fun act member => quiet_seen view (silent act member))

omit view in
theorem announced_transition (target reason : String) (source next : SessionState) (seq : Nat) :
    ∀ act ∈ announced target source next reason seq, transition sid act = none := by
  intro act member
  simp only [announced, List.mem_cons, List.not_mem_nil, or_false] at member
  rcases member with rfl | rfl | rfl | rfl
  all_goals rfl

theorem announced_elsewhere {target : String} (other : target ≠ sid) (reason : String)
    (source next : SessionState) (seq : Nat) :
    ∀ act ∈ announced target source next reason seq, seen act = none := by
  intro act member
  simp only [announced, List.mem_cons, List.not_mem_nil, or_false] at member
  rcases view with rfl | rfl
  · rcases member with rfl | rfl | rfl | rfl
    · rfl
    · rfl
    · exact if_neg other
    · rfl
  · rcases member with rfl | rfl | rfl | rfl
    · rfl
    · rfl
    · rfl
    · exact if_neg other

/-- A swap that took effect, followed by its announcement. -/
theorem swap_settles (target reason : String) (expected prev next : SessionState) (seq : Nat)
    {middle : List (Act sig)} (silent : ∀ act ∈ middle, act.op ∈ quiet) :
    Settles (transition sid) seen
      (⟨Op.cas target expected next, some prev⟩ ::
        (middle ++ announced target prev next reason seq)) := by
  have noneDue : ∀ act ∈ middle, transition sid act = none :=
    fun act member => quiet_transition (silent act member)
  have noneSeen : ∀ act ∈ middle, seen act = none :=
    fun act member => quiet_seen view (silent act member)
  let shared := stamp (stateChangeEvent prev next reason) seq
  let numbered : List (Act sig) := [⟨Op.nextSeq target, seq⟩, ⟨Op.lockRing target, ()⟩]
  let pushes : Act sig := ⟨Op.pushRing target shared, ()⟩
  let sends : Act sig := ⟨Op.send target shared, ()⟩
  have whole : announced target prev next reason seq = numbered ++ [pushes, sends] := rfl
  by_cases here : target = sid
  · subst here
    have causes : transition target ⟨Op.cas target expected next, some prev⟩ = some (prev, next) :=
      if_pos rfl
    have due := @announced_transition target target reason prev next seq
    rw [whole, List.forall_mem_append] at due
    rcases view with rfl | rfl
    · have seen : ∀ act ∈ numbered, recorded target act = none :=
        List.forall_mem_cons.mpr ⟨rfl, List.forall_mem_singleton.mpr rfl⟩
      have paid : Settles (transition target) (recorded target)
          (⟨Op.cas target expected next, some prev⟩ :: ((middle ++ numbered) ++ [pushes])) :=
        .paid causes rfl (List.forall_mem_append.mpr ⟨noneDue, due.1⟩)
          (List.forall_mem_append.mpr ⟨noneSeen, seen⟩) (if_pos rfl) rfl
      have rest : Settles (transition target) (recorded target) [sends] :=
        .silent (List.forall_mem_singleton.mpr rfl) (List.forall_mem_singleton.mpr rfl)
      simpa [whole] using settles_composes.append paid rest
    · have seen : ∀ act ∈ numbered ++ [pushes], broadcast target act = none :=
        List.forall_mem_cons.mpr
          ⟨rfl, List.forall_mem_cons.mpr ⟨rfl, List.forall_mem_singleton.mpr rfl⟩⟩
      have calm : ∀ act ∈ numbered ++ [pushes], transition target act = none :=
        List.forall_mem_append.mpr ⟨due.1, List.forall_mem_singleton.mpr rfl⟩
      have paid : Settles (transition target) (broadcast target)
          (⟨Op.cas target expected next, some prev⟩ ::
            ((middle ++ (numbered ++ [pushes])) ++ [sends])) :=
        .paid causes rfl (List.forall_mem_append.mpr ⟨noneDue, calm⟩)
          (List.forall_mem_append.mpr ⟨noneSeen, seen⟩) (if_pos rfl) rfl
      simpa [whole] using paid
  · have still : transition sid ⟨Op.cas target expected next, some prev⟩ = none := if_neg here
    have unseen : seen ⟨Op.cas target expected next, some prev⟩ = none := by
      rcases view with rfl | rfl
      · rfl
      · rfl
    apply Settles.silent
    · exact List.forall_mem_cons.mpr ⟨still, List.forall_mem_append.mpr
        ⟨noneDue, announced_transition target reason prev next seq⟩⟩
    · exact List.forall_mem_cons.mpr ⟨unseen, List.forall_mem_append.mpr
        ⟨noneSeen, announced_elsewhere view here reason prev next seq⟩⟩

theorem quiet_emits {α : Type} {task : Task α} (within : task.Within quiet) :
    task.Emits (Settles (transition sid) seen) :=
  within.emits settles_composes fun act silent => quiet_settles view (by simpa using silent)

theorem quiet_act {α : Type} {op : Op} {f : op.Ans → Task α} (silent : op ∈ quiet)
    (next : ∀ ans, (f ans).Emits (Settles (transition sid) seen)) :
    (perform op >>= f).Emits (Settles (transition sid) seen) :=
  .act settles_composes (fun _ => quiet_settles view (by simpa using silent)) next

/-- A swap whose winner announces it before doing anything else of note. -/
theorem swap_emits {α : Type} {target : String} {expected next : SessionState} (reason : String)
    {f : Option SessionState → Task α} (lost : (f none).Emits (Settles (transition sid) seen))
    (won : ∀ prev acts result, (f (some prev)).Completes acts result →
      ∃ middle seq rest, acts = middle ++ announced target prev next reason seq ++ rest ∧
        (∀ act ∈ middle, act.op ∈ quiet) ∧ Settles (transition sid) seen rest) :
    (perform (.cas target expected next) >>= f).Emits (Settles (transition sid) seen) := by
  intro acts result finishes
  obtain ⟨swapped, tail, rfl, continues⟩ := Proc.completes_perform_bind.mp finishes
  cases swapped with
  | none =>
    have nothing : Settles (transition sid) seen [⟨Op.cas target expected next, none⟩] := by
      apply Settles.silent
      · simp [transition]
      · rcases view with rfl | rfl
        · simp [recorded]
        · simp [broadcast]
    exact settles_composes.append nothing (lost tail result continues)
  | some prev =>
    obtain ⟨middle, seq, rest, rfl, silent, settled⟩ := won prev tail result continues
    have paid := swap_settles view target reason expected prev next seq silent
    simpa using settles_composes.append paid settled

end Announcing

theorem steady_quiet {op : Op} (free : op.steady = true) : op ∈ quiet := by
  cases op
  case cas | pushRing | send => cases free
  all_goals trivial

section Programs

variable {sid : String} {seen : Act sig → Option (SessionState × SessionState)}
  (view : seen = recorded sid ∨ seen = broadcast sid) (manager : SessionManager) (target : String)

include view

theorem beginReconcile_settles :
    (beginReconcile target).Emits (Settles (transition sid) seen) := by
  unfold beginReconcile
  refine quiet_act view (steady_quiet rfl) fun registered => ?_
  split
  · refine quiet_act view (steady_quiet rfl) fun state => ?_
    split
    · apply swap_emits view "reconcile started"
      · exact .done settles_composes _
      · intro prev acts result finishes
        obtain ⟨first, rest, _, rfl, publishes, rfl, _⟩ := Proc.completes_bind.mp finishes
        obtain ⟨seq, rfl⟩ := publishStateChange_completes publishes
        exact ⟨[], seq, [], by simp, by simp, settles_composes.nil⟩
    all_goals exact .done settles_composes _
  · exact .done settles_composes _

theorem completeReconcile_settles (snapshotSequence : Nat) :
    (completeReconcile target snapshotSequence).Emits (Settles (transition sid) seen) := by
  unfold completeReconcile
  refine quiet_act view (steady_quiet rfl) fun registered => ?_
  split
  · refine quiet_act view trivial fun _ => ?_
    refine quiet_act view (steady_quiet rfl) fun state => ?_
    split
    · apply swap_emits view "reconcile complete"
      · exact .done settles_composes _
      · intro prev acts result finishes
        obtain ⟨first, rest, _, rfl, publishes, rfl, _⟩ := Proc.completes_bind.mp finishes
        obtain ⟨seq, rfl⟩ := publishStateChange_completes publishes
        exact ⟨[], seq, [], by simp, by simp, settles_composes.nil⟩
    all_goals exact .done settles_composes _
  · exact .done settles_composes _

theorem finishStop_settles (failures : List String) :
    (finishStop target failures).Emits (Settles (transition sid) seen) := by
  have reports : (reportStop target failures).Emits (Settles (transition sid) seen) :=
    quiet_emits view (reportStop_within (fun _ => steady_quiet) failures)
  unfold finishStop
  refine quiet_act view (steady_quiet rfl) fun state => ?_
  split
  · exact .done settles_composes _
  · split
    · exact .done settles_composes _
    · apply swap_emits view "stop requested"
      · exact reports
      · intro prev acts result finishes
        obtain ⟨⟨⟩, rest, rfl, publishes⟩ := Proc.completes_perform_bind.mp finishes
        obtain ⟨news, tail, ⟨⟩, rfl, announces, ends⟩ := Proc.completes_bind.mp publishes
        obtain ⟨seq, rfl⟩ := publishStateChange_completes announces
        refine ⟨[⟨Op.markTerminal target, ()⟩], seq, tail, by simp, ?_, reports tail result ends⟩
        intro act member
        obtain rfl := List.mem_singleton.mp member
        exact (trivial : Op.markTerminal target ∈ quiet)

theorem stopSession_settles (cancelOpenOrders : Bool) :
    (stopSession manager target cancelOpenOrders).Emits (Settles (transition sid) seen) := by
  unfold stopSession
  refine quiet_act view (steady_quiet rfl) fun registered => ?_
  split
  · refine quiet_act view (steady_quiet rfl) fun state => ?_
    split
    · exact .done settles_composes _
    · split
      · have cancels : (cancelSessionOrders manager target).Within quiet :=
          cancelSessionOrders_within (fun _ => steady_quiet) fun _ => trivial
        exact (quiet_emits view cancels).bind settles_composes (finishStop_settles view target)
      · exact finishStop_settles view target []
  · exact .done settles_composes _

theorem tripKillSwitch_settles :
    (tripKillSwitch manager target).Emits (Settles (transition sid) seen) := by
  unfold tripKillSwitch
  refine quiet_act view (steady_quiet rfl) fun state => ?_
  split
  · apply swap_emits view "lease expired"
    · exact .done settles_composes _
    · intro prev acts result finishes
      obtain ⟨⟨⟩, rest, rfl, publishes⟩ := Proc.completes_perform_bind.mp finishes
      obtain ⟨news, tail, ⟨⟩, rfl, announces, ends⟩ := Proc.completes_bind.mp publishes
      obtain ⟨seq, rfl⟩ := publishStateChange_completes announces
      have executes : Proc.Within quiet (perform (.readPolicy target) >>= fun policy =>
          executeScope manager target policy.scope) :=
        .act (steady_quiet rfl) fun policy =>
          executeScope_within (fun _ => steady_quiet) (fun _ => trivial) trivial policy.scope
      refine ⟨[⟨Op.markTerminal target, ()⟩], seq, tail, by simp, ?_,
        quiet_emits view executes tail result ends⟩
      intro act member
      obtain rfl := List.mem_singleton.mp member
      exact (trivial : Op.markTerminal target ∈ quiet)
  · exact .done settles_composes _

theorem checkLeaseExpiry_settles :
    (checkLeaseExpiry manager target).Emits (Settles (transition sid) seen) := by
  unfold checkLeaseExpiry
  refine quiet_act view (steady_quiet rfl) fun registered => ?_
  split
  · refine quiet_act view (steady_quiet rfl) fun policy => ?_
    refine quiet_act view (steady_quiet rfl) fun state => ?_
    split
    · refine quiet_act view (steady_quiet rfl) fun elapsed => ?_
      dsimp only [Proc.pure_eq, Proc.done_bind]
      split
      · exact (tripKillSwitch_settles view manager target).bind settles_composes
          fun _ => .done settles_composes _
      · exact .done settles_composes _
    · exact .done settles_composes _
  · exact .done settles_composes _

theorem reconcileState_settles :
    (reconcileState manager target).Emits (Settles (transition sid) seen) := by
  unfold reconcileState
  refine (beginReconcile_settles view target).bind settles_composes fun begun => ?_
  split
  · exact .done settles_composes _
  · refine quiet_act view (steady_quiet rfl) fun answer => ?_
    split
    · exact .done settles_composes _
    · refine (completeReconcile_settles view target _).bind settles_composes fun completed => ?_
      split
      · exact .done settles_composes _
      · exact .done settles_composes _

end Programs

/-- Every call announces what it moved, unless it is a bare `publish`, whose event is
the caller's own. -/
theorem Call.settles {sid : String} {seen : Act sig → Option (SessionState × SessionState)}
    (view : seen = recorded sid ∨ seen = broadcast sid) (manager : SessionManager) {call : Call}
    (derived : ∀ target event, call ≠ .publish target event) :
    (call.task manager).Emits (Settles (transition sid) seen) := by
  have routine : ∀ op : Op, op.steady = true → op ∈ quiet := fun _ => steady_quiet
  cases call with
  | beginReconcile target => exact (beginReconcile_settles view target).map _
  | completeReconcile target sequence => exact (completeReconcile_settles view target sequence).map _
  | reconcileState target => exact (reconcileState_settles view manager target).map _
  | stopSession target cancels => exact (stopSession_settles view manager target cancels).map _
  | checkLeaseExpiry target => exact (checkLeaseExpiry_settles view manager target).map _
  | tripKillSwitch target => exact (tripKillSwitch_settles view manager target).map _
  | publish target event => exact absurd rfl (derived target event)
  | reportLog target level message fields =>
    refine Proc.Emits.map (quiet_emits view (reportLog_within routine trivial ?_ ?_)) _
    · intro shared logged
      simp [quiet, stateChangeOf, logged]
    · intro shared logged
      simp [quiet, stateChangeOf, logged]
  | createOrder request =>
    exact (quiet_emits view (createOrder_within routine (fun _ => trivial) request trivial
      fun _ _ => ⟨trivial, fun _ => trivial⟩)).map _
  | createOrders request =>
    exact (quiet_emits view (createOrders_within routine (fun _ => trivial) request trivial
      trivial fun _ _ => ⟨trivial, fun _ => trivial⟩)).map _
  | attach token policy target client =>
    exact (quiet_emits view (attachWithReconnect_within routine token policy client
      fun _ => trivial)).map _
  | keepAlive target => exact (quiet_emits view (keepAlive_within routine)).map _
  | setKillSwitchPolicy target policy =>
    exact (quiet_emits view (setKillSwitchPolicy_within routine policy fun _ => trivial)).map _
  | stream target resumeToken polls =>
    exact (quiet_emits view (streamStrategyEvents_within routine resumeToken polls)).map _
  | venueClose exchange orderId =>
    exact (quiet_emits view (Proc.within_perform.mpr (routine _ rfl))).map _
  | timePasses elapsed =>
    exact (quiet_emits view (Proc.within_perform.mpr (routine _ rfl))).map _

section Pools

variable {ι : Type} [DecidableEq ι] {manager : SessionManager} {plane : Plane} {calls : ι → Call}
  {history : List (Entry sig ι)} {config : Config machine ι Outcome} {sid : String}
  {seen : Act sig → Option (SessionState × SessionState)}

/-- What a task has announced of a session so far, and what it announced in the end. -/
theorem announced_by_task (run : Run (pool manager plane calls) history config)
    (view : seen = recorded sid ∨ seen = broadcast sid)
    (derived : ∀ task target event, calls task ≠ .publish target event) (task : ι) :
    (own task history).filterMap seen <+: (own task history).filterMap (transition sid) ∧
      ∀ result, config.procs task = .done result →
        (own task history).filterMap seen = (own task history).filterMap (transition sid) := by
  have settles := Call.settles view manager (derived task)
  refine ⟨Settles.of_path settles (run.path task), ?_⟩
  intro result finished
  exact (settles _ result (run.completes finished)).complete

/-- The history of session `sid` from `source`, in a pool that reached `config`. -/
structure SoundLifecycle (sid : String) (source : SessionState) (history : List (Entry sig ι))
    (config : Config machine ι Outcome) : Prop where
  path : ∃ target, Plane.origin config.state sid = some target ∧
    Trail source (transitions sid history) target
  terminal_kept : ∀ move ∈ transitions sid history, move.1.isTerminal = false
  tripped_from_active : ∀ move ∈ transitions sid history,
    move.2 = .killSwitchTripped → move.1 = .active
  never_ahead : ∀ task,
    (own task history).filterMap (recorded sid) <+: (own task history).filterMap (transition sid) ∧
    (own task history).filterMap (broadcast sid) <+: (own task history).filterMap (transition sid)
  announced : ∀ task result, config.procs task = .done result →
    (own task history).filterMap (recorded sid) = (own task history).filterMap (transition sid) ∧
    (own task history).filterMap (broadcast sid) = (own task history).filterMap (transition sid)
  settled : (∀ task, ∃ result, config.procs task = .done result) →
    (shown (recorded sid) history).Perm (transitions sid history) ∧
    (shown (broadcast sid) history).Perm (transitions sid history)

/-- Under every interleaving of calls a session moves along the lifecycle graph, and
each of its transitions is recorded and broadcast once by the task that made it. -/
theorem lifecycle_sound (run : Run (pool manager plane calls) history config)
    {source : SessionState} (starts : plane.origin sid = some source)
    (derived : ∀ task target event, calls task ≠ .publish target event) :
    SoundLifecycle sid source history config := by
  obtain ⟨target, reached, trail⟩ := transitions_trail (pool_execution run) starts
  have ring := announced_by_task run (.inl (Eq.refl (recorded sid))) derived
  have subscribers := announced_by_task run (.inr (Eq.refl (broadcast sid))) derived
  refine ⟨⟨target, reached, trail⟩, ?_, ?_, ?_, ?_, ?_⟩
  · intro move member
    exact (trail.edge move member).live
  · intro move member tripped
    have edge := trail.edge move member
    rw [tripped] at edge
    exact edge.source_of_trip
  · intro task
    exact ⟨(ring task).1, (subscribers task).1⟩
  · intro task result finished
    exact ⟨(ring task).2 result finished, (subscribers task).2 result finished⟩
  · intro finished
    constructor
    · apply shown_perm
      intro task
      obtain ⟨result, done⟩ := finished task
      exact (ring task).2 result done
    · apply shown_perm
      intro task
      obtain ⟨result, done⟩ := finished task
      exact (subscribers task).2 result done

end Pools

/-- A reconcile, a stop and a trip of one session. -/
def lifecycleCalls : Fin 3 → Call
  | 0 => .reconcileState "s1"
  | 1 => .stopSession "s1" true
  | 2 => .tripKillSwitch "s1"

/-- The reconcile goes through, the trip wins the swap from ACTIVE, and the stop
returns the state it found. -/
theorem lifecycle_sound_tripped :
    ∃ history config,
      Run (pool mockManager (Plane.single (.inState .attached [])) lifecycleCalls) history config ∧
      transitions "s1" history =
        [(.attached, .syncing), (.syncing, .active), (.active, .killSwitchTripped)] ∧
      SoundLifecycle "s1" .attached history config := by
  obtain ⟨history, config, run, trail⟩ : ∃ history config,
      Run (pool mockManager (Plane.single (.inState .attached [])) lifecycleCalls) history config ∧
      transitions "s1" history =
        [(.attached, .syncing), (.syncing, .active), (.active, .killSwitchTripped)] :=
    Run.exists_of_replay
      (List.flatten [List.replicate 7 (0, .none), [(0, .snapshot (.ok 7))],
        List.replicate 8 (0, .none), [(1, .none), (2, .none), (2, .none), (1, .none)]])
      (by decide +kernel)
  refine ⟨history, config, run, trail, lifecycle_sound run rfl ?_⟩
  intro task target event
  unfold lifecycleCalls
  split
  all_goals simp

end LongTrader.Session
