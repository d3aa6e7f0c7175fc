import LongTrader.Session.Retention

/-! What the sweeps remove. Over every interleaving of calls and sweeps, a stamp says
that its session had ended by then, and once the calls have returned every ended
session is stamped and no stamp is locked. -/

namespace LongTrader.Session

open Interleave

namespace Retention

/-- The session has ended. -/
def State.terminal (state : State) (sid : String) : Prop :=
  ∃ ending, state.plane.sessionState sid = some ending ∧ ending.isTerminal = true

instance (state : State) (sid : String) : Decidable (state.terminal sid) :=
  decidable_of_iff ((state.plane.sessionState sid).any SessionState.isTerminal = true)
    (Option.any_eq_true _ _)

/-- The session carries this terminal stamp. -/
def State.stamped (state : State) (sid : String) (instant : Nat) : Prop :=
  ∃ handle, state.plane.handles sid = some handle ∧ handle.terminalAt = some instant

/-- The action of the plane that an action is, if any. -/
def planeAct : Act sig → Option (Act Session.sig)
  | ⟨.plane op, ans⟩ => some ⟨op, ans⟩
  | _ => none

section Steps

variable {state after : State} {op : Op} {choice : Choice} {ans : op.Ans} {sid : String}

/-- What one action does: an action of the plane, a sweep's critical section, or
nothing that concerns the plane. -/
theorem exec_cases (fires : state.exec op choice = some (ans, after)) :
    (∃ inner answer, (⟨op, ans⟩ : Act sig) = ⟨.plane inner, answer⟩ ∧
        state.plane.exec inner choice = some (answer, after.plane)) ∨
      (∃ now retention, op = .retain now retention ∧ after = state.retain now retention) ∨
      planeAct ⟨op, ans⟩ = none ∧ after.plane = state.plane := by
  unfold State.exec at fires
  split at fires
  · split at fires
    · obtain ⟨⟨answer, plane⟩, inner, same⟩ := Option.map_eq_some_iff.mp fires
      obtain ⟨rfl, rfl⟩ := Prod.mk.inj same
      exact .inl ⟨_, _, rfl, inner⟩
    · cases fires
  · obtain ⟨⟨answer, plane⟩, inner, same⟩ := Option.map_eq_some_iff.mp fires
    obtain ⟨rfl, rfl⟩ := Prod.mk.inj same
    exact .inl ⟨_, _, rfl, inner⟩
  · split at fires
    · cases fires
    · obtain ⟨_, rfl⟩ := Prod.mk.inj (Option.some.inj fires)
      exact .inr (.inr ⟨rfl, rfl⟩)
  · obtain ⟨_, rfl⟩ := Prod.mk.inj (Option.some.inj fires)
    exact .inr (.inr ⟨rfl, rfl⟩)
  · obtain ⟨_, rfl⟩ := Prod.mk.inj (Option.some.inj fires)
    exact .inr (.inl ⟨_, _, rfl, rfl⟩)

theorem effect_terminalAt (op : Session.Op) (sid : String) (now : Nat) (handle : SessionHandle) :
    (Plane.effect op sid now handle).terminalAt =
      if op = .markTerminal sid then handle.terminalAt.orElse fun _ => some now
      else handle.terminalAt := by
  cases op
  case markTerminal target =>
    by_cases here : target = sid
    · simp [Plane.effect, here]
    · simp [Plane.effect, here]
  all_goals
    simp only [Plane.effect, reduceCtorEq, if_false]
    try (split <;> rfl)

theorem now_modify {plane later : Plane} {sid : String} {answer : Unit}
    {change : SessionHandle → SessionHandle}
    (fires : plane.modify sid change = some (answer, later)) : later.now = plane.now := by
  obtain ⟨handle, found, same⟩ := Option.map_eq_some_iff.mp fires
  obtain ⟨_, rfl⟩ := Prod.mk.inj same
  rfl

theorem exec_now {plane later : Plane} {op : Session.Op} {ans : op.Ans}
    (fires : plane.exec op choice = some (ans, later)) : plane.now ≤ later.now := by
  cases op
  case touch | markTerminal | fetchMaxSnapshotSeq | addLogEvent | pushRing | send
      | addOrdersSubmitted => exact (now_modify fires).ge
  case load | lastSeenElapsedMs | readPolicy | readClient | heartbeatIntervalMs | currentSeq
      | subscribe => exact Plane.read_plane fires ▸ Nat.le_refl _
  case createOrder | createOrders =>
    simp only [Plane.exec] at fires
    split at fires
    all_goals first
      | (obtain ⟨placed, success, same⟩ := Option.map_eq_some_iff.mp fires
         obtain ⟨_, rfl⟩ := Prod.mk.inj same
         exact (Plane.handles_placeAll success).2.2.ge)
      | (obtain ⟨_, rfl⟩ := Prod.mk.inj (Option.some.inj fires)
         exact Nat.le_refl _)
      | cases fires
  all_goals
    simp only [Plane.exec] at fires
    repeat' split at fires
    all_goals cases fires
    all_goals first
      | exact Nat.le_refl _
      | exact Nat.le_add_right _ _

/-- Time does not run backwards. -/
theorem now_step (fires : state.exec op choice = some (ans, after)) :
    state.plane.now ≤ after.plane.now := by
  rcases exec_cases fires with ⟨inner, answer, _, inside⟩ | ⟨now, retention, _, rfl⟩ | ⟨_, same⟩
  · exact exec_now inside
  · exact Nat.le_refl _
  · exact same ▸ Nat.le_refl _

/-- A stamp is never taken back or changed. -/
theorem stamped_step {instant : Nat} (fires : state.exec op choice = some (ans, after))
    (stamped : state.stamped sid instant) : after.stamped sid instant := by
  obtain ⟨handle, found, stamp⟩ := stamped
  rcases exec_cases fires with ⟨inner, answer, _, inside⟩ | ⟨now, retention, _, rfl⟩ | ⟨_, same⟩
  · refine ⟨_, Plane.exec_keeps_handle inside found, ?_⟩
    rw [effect_terminalAt, stamp]
    split
    · rfl
    · rfl
  · exact ⟨handle, found, stamp⟩
  · exact ⟨handle, same ▸ found, stamp⟩

/-- A stamp that was not there before was just written, with the time of the clock. -/
theorem stamped_new {instant : Nat} (fires : state.exec op choice = some (ans, after))
    (stamped : after.stamped sid instant) :
    state.stamped sid instant ∨ op = .plane (.markTerminal sid) ∧ instant = state.plane.now := by
  obtain ⟨later, found, stamp⟩ := stamped
  rcases exec_cases fires with ⟨inner, answer, same, inside⟩ | ⟨now, retention, _, rfl⟩ | ⟨_, same⟩
  · cases present : state.plane.handles sid with
    | none =>
      obtain ⟨policy, client, _, rfl⟩ := Plane.exec_new_handle inside present found
      cases stamp
    | some handle =>
      obtain rfl := Option.some.inj (found.symm.trans (Plane.exec_keeps_handle inside present))
      rw [effect_terminalAt] at stamp
      split at stamp
      · rename_i marks
        subst marks
        cases old : handle.terminalAt with
        | none =>
          rw [old] at stamp
          exact .inr ⟨(Act.mk.inj same).1, (Option.some.inj stamp).symm⟩
        | some earlier =>
          rw [old] at stamp
          exact .inl ⟨handle, present, old.trans stamp⟩
      · exact .inl ⟨handle, present, stamp⟩
  · exact .inl ⟨later, found, stamp⟩
  · exact .inl ⟨later, same ▸ found, stamp⟩

/-- The write of a stamp leaves one. -/
theorem stamped_of_mark {answer : Unit}
    (fires : state.exec (.plane (.markTerminal sid)) choice = some (answer, after)) :
    ∃ instant, after.stamped sid instant := by
  rcases exec_cases fires with ⟨inner, answer, same, inside⟩ | ⟨now, retention, same, _⟩ | ⟨same, _⟩
  · obtain ⟨rfl, _⟩ := Op.plane.inj (Act.mk.inj same).1
    obtain ⟨handle, found, written⟩ := Option.map_eq_some_iff.mp inside
    have kept := Plane.exec_keeps_handle inside found
    have stamp := effect_terminalAt (.markTerminal sid) sid state.plane.now handle
    rw [if_pos rfl] at stamp
    cases old : handle.terminalAt with
    | none => exact ⟨state.plane.now, _, kept, by rw [stamp, old]; rfl⟩
    | some earlier => exact ⟨earlier, _, kept, by rw [stamp, old]; rfl⟩
  · cases same
  · cases same

/-- A session ends only by a transition into a terminal state. -/
theorem terminal_new (fires : state.exec op choice = some (ans, after)) (ends : after.terminal sid) :
    state.terminal sid ∨ (planeAct ⟨op, ans⟩).bind (ended sid) = some () := by
  obtain ⟨ending, reached, terminal⟩ := ends
  rcases exec_cases fires with ⟨inner, answer, same, inside⟩ | ⟨now, retention, _, rfl⟩ | ⟨_, same⟩
  · cases present : state.plane.handles sid with
    | none =>
      obtain ⟨later, found, decoded⟩ := Plane.handle_of_sessionState reached
      obtain ⟨policy, client, _, rfl⟩ := Plane.exec_new_handle inside present found
      obtain rfl : SessionState.attached = ending := Option.some.inj decoded
      cases terminal
    | some handle =>
      rcases Plane.exec_sessionState inside present with ⟨_, still⟩ | ⟨source, target, swap, _, moved⟩
      · exact .inl ⟨ending, still.symm.trans reached, terminal⟩
      · obtain rfl := Option.some.inj (moved.symm.trans reached)
        right
        rw [same]
        show ended sid ⟨inner, answer⟩ = some ()
        rw [swap]
        exact if_pos ⟨rfl, terminal⟩
  · exact .inl ⟨ending, reached, terminal⟩
  · exact .inl ⟨ending, same ▸ reached, terminal⟩

theorem terminal_of_ending (fires : state.exec op choice = some (ans, after))
    (ends : (planeAct ⟨op, ans⟩).bind (ended sid) = some ()) : after.terminal sid := by
  rcases exec_cases fires with ⟨inner, answer, same, inside⟩ | ⟨now, retention, rfl, _⟩ | ⟨other, _⟩
  · rw [same] at ends
    have swaps : ended sid ⟨inner, answer⟩ = some () := ends
    unfold ended at swaps
    split at swaps
    · rename_i target expected next prev shape
      obtain ⟨rfl, answered⟩ := Act.mk.inj shape
      obtain rfl := eq_of_heq answered
      split at swaps
      · rename_i both
        obtain ⟨rfl, final⟩ := both
        rcases Plane.exec_cas inside with ⟨_, _, moved⟩ | ⟨lost, _⟩
        · exact ⟨next, moved, final⟩
        · cases lost
      · cases swaps
    · cases swaps
  · cases ends
  · rw [other] at ends
    cases ends

/-- A lawful action never leaves a terminal state. -/
theorem terminal_step (fires : state.exec op choice = some (ans, after))
    (lawful : ∀ source target, op = .plane (.cas sid source target) → SessionState.Edge source target)
    (terminal : state.terminal sid) : after.terminal sid := by
  obtain ⟨ending, known, final⟩ := terminal
  rcases exec_cases fires with ⟨inner, answer, same, inside⟩ | ⟨now, retention, _, rfl⟩ | ⟨_, same⟩
  · obtain ⟨handle, found, _⟩ := Plane.handle_of_sessionState known
    rcases Plane.exec_sessionState inside found with ⟨_, still⟩ | ⟨source, target, swap, left, _⟩
    · exact ⟨ending, still.trans known, final⟩
    · obtain rfl := Option.some.inj (left.symm.trans known)
      obtain ⟨rfl, _⟩ := Act.mk.inj swap
      have edge := lawful source target (Act.mk.inj same).1
      rw [edge.live] at final
      cases final
  · exact ⟨ending, known, final⟩
  · exact ⟨ending, same ▸ known, final⟩

/-- A session leaves the registry only by a sweep that finds its stamp old enough. -/
theorem removed_step (fires : state.exec op choice = some (ans, after))
    (registered : sid ∈ state.plane.registry) (gone : sid ∉ after.plane.registry) :
    ∃ now retention instant, op = .retain now retention ∧ state.stamped sid instant ∧
      retention ≤ now - instant := by
  rcases exec_cases fires with ⟨inner, answer, _, inside⟩ | ⟨now, retention, rfl, rfl⟩ | ⟨_, same⟩
  · exact absurd (Plane.exec_registry inside registered) gone
  · have dropped : ¬ state.keeps now retention sid = true :=
      fun kept => gone (List.mem_filter.mpr ⟨registered, kept⟩)
    unfold State.keeps at dropped
    split at dropped
    · rename_i age known
      unfold State.tryTerminalAge at known
      split at known
      · cases known
      · obtain ⟨handle, found, aged⟩ := Option.bind_eq_some_iff.mp known
        obtain ⟨instant, stamp, rfl⟩ := Option.map_eq_some_iff.mp aged
        exact ⟨now, retention, instant, rfl, ⟨handle, found, stamp⟩, by simpa using dropped⟩
    · exact absurd rfl dropped
  · exact absurd (same ▸ registered) gone

end Steps

section Duties

variable {sid : String}

/-- What an action of a duty rests on: a swap follows the lifecycle graph, and a sweep
uses the time that it read before. -/
def Rests (past : List (Act sig)) (act : Act sig) : Prop :=
  match act.op with
  | .plane (.cas _ source target) => SessionState.Edge source target
  | .retain now _ => (⟨.instantNow, now⟩ : Act sig) ∈ past
  | _ => True

/-- The actions that a call may perform. -/
def callOps : Set Op :=
  {op | match op with
    | .plane (.cas _ source target) => SessionState.Edge source target
    | .retain _ _ => False
    | _ => True}

theorem spell_eq {op : Session.Op} (other : ∀ sid, op ≠ .markTerminal sid) :
    spell op = perform (.plane op) := by
  cases op
  case markTerminal sid => exact absurd rfl (other sid)
  all_goals rfl

theorem spell_spells : Spells spell planeAct := by
  intro op acts ans finishes
  by_cases marks : ∃ sid, op = .markTerminal sid
  · obtain ⟨sid, rfl⟩ := marks
    obtain ⟨_, rest, rfl, locked⟩ := Proc.completes_perform_bind.mp finishes
    obtain ⟨answer, tail, rfl, rfl, rfl⟩ := locked
    rfl
  · rw [spell_eq fun sid same => marks ⟨sid, same⟩] at finishes
    obtain ⟨answer, tail, rfl, rfl, rfl⟩ := finishes
    rfl

theorem spell_within {manager : SessionManager} {call : Call} {op : Session.Op}
    (permitted : op ∈ call.permits manager) : (spell op).Within callOps := by
  cases op
  case markTerminal => exact ⟨trivial, fun _ => ⟨trivial, fun _ => trivial⟩⟩
  case cas target source next => exact ⟨permitted.1, fun _ => trivial⟩
  all_goals exact ⟨trivial, fun _ => trivial⟩

theorem duty_rests (manager : SessionManager) (duty : Duty) :
    (duty.task manager).Justifies Rests [] := by
  cases duty with
  | serve call =>
    have within : ((call.task manager).expand spell).Within callOps :=
      (call.within_permits manager).expand fun _ => spell_within
    refine Proc.Justifies.map (within.justifies ?_) _
    rintro past ⟨op, ans⟩ allowed
    cases op
    case retain => cases allowed
    case plane inner =>
      cases inner
      case cas => exact allowed
      all_goals trivial
    all_goals trivial
  | sweep retention =>
    refine Proc.Justifies.map ?_ _
    refine .act (fun _ => trivial) fun now => ?_
    intro answer
    exact ⟨List.mem_append_right _ (List.mem_singleton.mpr rfl), trivial⟩

/-- The two actions of a sweep. -/
theorem retire_completes {retention : Nat} {acts : List (Act sig)} {result : Unit}
    (finishes : (retireTerminalSessions retention).Completes acts result) :
    ∃ now, acts = [⟨.instantNow, now⟩, ⟨.retain now retention, ()⟩] := by
  obtain ⟨now, rest, rfl, sweeps⟩ := Proc.completes_perform_bind.mp finishes
  obtain ⟨answer, tail, rfl, rfl, _⟩ := sweeps
  exact ⟨now, rfl⟩

/-- Every duty stamps the sessions it ended and no other. -/
theorem duty_stamps (sid : String) (manager : SessionManager) (duty : Duty) :
    (duty.task manager).Emits (Settles (fun act => (planeAct act).bind (ended sid))
      (fun act => (planeAct act).bind (marked sid))) := by
  cases duty with
  | serve call => exact ((call_stamps manager call).expand spell_spells).map _
  | sweep retention =>
    refine Proc.Emits.map ?_ _
    intro acts result finishes
    obtain ⟨now, rfl⟩ := retire_completes finishes
    apply Settles.silent
    · exact List.forall_mem_cons.mpr ⟨rfl, List.forall_mem_singleton.mpr rfl⟩
    · exact List.forall_mem_cons.mpr ⟨rfl, List.forall_mem_singleton.mpr rfl⟩

/-- The lock of session `sid` that an action takes, and the one it gives back. -/
def locks (sid : String) : Act sig → Option Unit
  | ⟨.lockTerminalAt target, _⟩ => if target = sid then some () else none
  | _ => none

def unlocks (sid : String) (act : Act sig) : Option Unit := (planeAct act).bind (marked sid)

theorem unlocks_op {op : Op} {ans : op.Ans} (given : unlocks sid ⟨op, ans⟩ = some ()) :
    op = .plane (.markTerminal sid) := by
  unfold unlocks at given
  cases op
  case plane inner =>
    cases inner
    case markTerminal target =>
      have same : (if target = sid then some () else none) = some () := given
      split at same
      · rename_i here
        rw [here]
      · cases same
    all_goals cases given
  all_goals cases given

/-- A lock is held from the action that takes it to the one that gives it back. -/
theorem stamping_step {state after : State} {op : Op} {choice : Choice} {ans : op.Ans} (sid : String)
    (fires : state.exec op choice = some (ans, after)) :
    (unlocks sid ⟨op, ans⟩).toList.length + (if sid ∈ after.stamping then 1 else 0) =
      (locks sid ⟨op, ans⟩).toList.length + if sid ∈ state.stamping then 1 else 0 := by
  unfold State.exec at fires
  split at fires
  · rename_i target
    split at fires
    · rename_i held
      obtain ⟨⟨answer, plane⟩, inner, same⟩ := Option.map_eq_some_iff.mp fires
      obtain ⟨rfl, rfl⟩ := Prod.mk.inj same
      by_cases here : target = sid
      · subst here
        simp [unlocks, planeAct, marked, locks, held]
      · simp [unlocks, planeAct, marked, locks, here, Ne.symm here]
    · cases fires
  · rename_i inner other
    obtain ⟨⟨answer, plane⟩, inside, same⟩ := Option.map_eq_some_iff.mp fires
    obtain ⟨rfl, rfl⟩ := Prod.mk.inj same
    have unseen : unlocks sid ⟨.plane inner, answer⟩ = none := by
      cases given : unlocks sid ⟨.plane inner, answer⟩ with
      | none => rfl
      | some _ => exact absurd (Op.plane.inj (unlocks_op given)) (other sid)
    simp [unseen, locks]
  · rename_i target
    split at fires
    · cases fires
    · rename_i free
      obtain ⟨_, rfl⟩ := Prod.mk.inj (Option.some.inj fires)
      by_cases here : target = sid
      · subst here
        simp [unlocks, planeAct, locks, free]
      · simp [unlocks, planeAct, locks, here, Ne.symm here]
  · obtain ⟨_, rfl⟩ := Prod.mk.inj (Option.some.inj fires)
    rfl
  · obtain ⟨_, rfl⟩ := Prod.mk.inj (Option.some.inj fires)
    rfl

theorem spell_unlocks (op : Session.Op) : (spell op).Emits (Settles (locks sid) (unlocks sid)) := by
  intro acts ans finishes
  by_cases marks : ∃ target, op = .markTerminal target
  · obtain ⟨target, rfl⟩ := marks
    obtain ⟨_, rest, rfl, locked⟩ := Proc.completes_perform_bind.mp finishes
    obtain ⟨answer, tail, rfl, rfl, rfl⟩ := locked
    by_cases here : target = sid
    · have paid : Settles (locks sid) (unlocks sid)
          (⟨Op.lockTerminalAt target, ()⟩ :: ([] ++ [⟨Op.plane (.markTerminal target), answer⟩])) :=
        .paid (if_pos here) rfl (List.forall_mem_nil _) (List.forall_mem_nil _) (if_pos here) rfl
      exact paid
    · apply Settles.silent
      · exact List.forall_mem_cons.mpr ⟨if_neg here, List.forall_mem_singleton.mpr rfl⟩
      · exact List.forall_mem_cons.mpr ⟨rfl, List.forall_mem_singleton.mpr (if_neg here)⟩
  · have other : ∀ target, op ≠ .markTerminal target := fun target same => marks ⟨target, same⟩
    rw [spell_eq other] at finishes
    obtain ⟨answer, tail, rfl, rfl, rfl⟩ := finishes
    have unseen : unlocks sid ⟨.plane op, answer⟩ = none := by
      unfold unlocks
      cases op
      case markTerminal target => exact absurd rfl (other target)
      all_goals rfl
    exact .silent (List.forall_mem_singleton.mpr rfl) (List.forall_mem_singleton.mpr unseen)

/-- A duty gives back every lock it takes. -/
theorem duty_unlocks (sid : String) (manager : SessionManager) (duty : Duty) :
    (duty.task manager).Emits (Settles (locks sid) (unlocks sid)) := by
  cases duty with
  | serve call => exact (Proc.expand_emits settles_composes spell_unlocks (call.task manager)).map _
  | sweep retention =>
    refine Proc.Emits.map ?_ _
    intro acts result finishes
    obtain ⟨now, rfl⟩ := retire_completes finishes
    apply Settles.silent
    · exact List.forall_mem_cons.mpr ⟨rfl, List.forall_mem_singleton.mpr rfl⟩
    · exact List.forall_mem_cons.mpr ⟨rfl, List.forall_mem_singleton.mpr rfl⟩

end Duties

section Runs

variable {ι : Type} [DecidableEq ι] {manager : SessionManager} {opened : Nat} {duties : ι → Duty}
  {history : List (Entry sig ι)} {config : Config machine ι (Option Outcome)} {sid : String}

theorem now_run {start : Config machine ι (Option Outcome)} (run : Run start history config) :
    start.state.plane.now ≤ config.state.plane.now := by
  induction run with
  | start => exact Nat.le_refl _
  | step run pending choice fires ih => exact ih.trans (now_step fires)

theorem stamped_run {start : Config machine ι (Option Outcome)} {instant : Nat}
    (run : Run start history config) (stamped : start.state.stamped sid instant) :
    config.state.stamped sid instant := by
  induction run with
  | start => exact stamped
  | step run pending choice fires ih => exact stamped_step fires ih

/-- The next action of a run rests on what its task did before. -/
theorem next_rests (run : Run (pool manager opened duties) history config) {task : ι} {op : Op}
    {next : op.Ans → Proc sig (Option Outcome)} {ans : op.Ans} {state : State} {choice : Choice}
    (pending : config.procs task = .act op next)
    (fires : config.state.exec op choice = some (ans, state)) : Rests (own task history) ⟨op, ans⟩ :=
  (run.step pending choice fires).justified (duty_rests manager (duties task))

/-- The time that a sweep goes by is no later than the present. -/
theorem clock_read (run : Run (pool manager opened duties) history config) {task : ι}
    {now retention : Nat} {next : Unit → Proc sig (Option Outcome)} {ans : Unit} {state : State}
    (choice : Choice) (pending : config.procs task = .act (.retain now retention) next)
    (fires : config.state.exec (.retain now retention) choice = some (ans, state)) :
    now ≤ config.state.plane.now := by
  have read : (⟨.instantNow, now⟩ : Act sig) ∈ own task history := next_rests run pending fires
  obtain ⟨pre, post, rfl⟩ := List.append_of_mem (mem_own.mp read)
  rw [List.append_cons] at run
  obtain ⟨middle, first, second⟩ := run.split
  obtain ⟨before, _, _, reads⟩ := first.last
  obtain ⟨same, kept⟩ := Prod.mk.inj (Option.some.inj reads)
  calc now = before.state.plane.now := same.symm
    _ = middle.state.plane.now := by rw [kept]
    _ ≤ config.state.plane.now := now_run second

/-- A session that some action ended has ended for good. -/
theorem terminal_of_ended (run : Run (pool manager opened duties) history config)
    {entry : Entry sig ι} (member : entry ∈ history)
    (ends : (planeAct entry.act).bind (ended sid) = some ()) : config.state.terminal sid := by
  induction run with
  | start => cases member
  | @step history config task op next ans state run pending choice fires ih =>
    rcases List.mem_append.mp member with old | new
    · apply terminal_step fires ?_ (ih old)
      rintro source target rfl
      exact next_rests run pending fires
    · obtain rfl := List.mem_singleton.mp new
      exact terminal_of_ending fires ends

/-- A stamp says that the session had ended by then. -/
theorem stamp_sound (run : Run (pool manager opened duties) history config) {instant : Nat}
    (stamped : config.state.stamped sid instant) :
    config.state.terminal sid ∧ instant ≤ config.state.plane.now ∧
      Passes (pool manager opened duties) history config
        (fun earlier => earlier.terminal sid ∧ earlier.plane.now ≤ instant) := by
  induction run with
  | start =>
    obtain ⟨handle, absent, _⟩ := stamped
    cases absent
  | @step history config task op next ans state run pending choice fires ih =>
    have lawful : ∀ source target, op = .plane (.cas sid source target) →
        SessionState.Edge source target := by
      rintro source target rfl
      exact next_rests run pending fires
    rcases stamped_new fires stamped with old | ⟨rfl, rfl⟩
    · obtain ⟨terminal, past, passes⟩ := ih old
      exact ⟨terminal_step fires lawful terminal, past.trans (now_step fires),
        passes.step pending choice fires⟩
    · -- The task that stamps the session had ended it before.
      have path := (run.step pending choice fires).path task
      have due := Settles.of_path (duty_stamps sid manager (duties task)) path
      have counted : () ∈ (own task (history ++ [Entry.of task (Op.plane (.markTerminal sid)) ans])).filterMap
          (fun act => (planeAct act).bind (marked sid)) := by
        rw [own_append, own_singleton_self, List.filterMap_append]
        apply List.mem_append_right
        exact List.mem_filterMap.mpr ⟨_, List.mem_singleton.mpr rfl, if_pos rfl⟩
      obtain ⟨act, performed, ends⟩ := List.mem_filterMap.mp (due.subset counted)
      have earlier : (⟨task, act⟩ : Entry sig ι) ∈ history := by
        rcases List.mem_append.mp (mem_own.mp performed) with old | new
        · exact old
        · obtain rfl := (Entry.mk.inj (List.mem_singleton.mp new)).2
          cases ends
      have terminal := terminal_of_ended run earlier ends
      have passes : Passes (pool manager opened duties) history config (fun earlier =>
          earlier.terminal sid ∧ earlier.plane.now ≤ config.state.plane.now) :=
        run.passes ⟨terminal, Nat.le_refl _⟩
      have stamps : config.state.exec (.plane (.markTerminal sid)) choice = some (ans, state) := fires
      have later := now_step stamps
      exact ⟨terminal_step fires lawful terminal, later, passes.step pending choice fires⟩

theorem ended_of_terminal (run : Run (pool manager opened duties) history config)
    (terminal : config.state.terminal sid) :
    ∃ entry ∈ history, (planeAct entry.act).bind (ended sid) = some () := by
  induction run with
  | start =>
    obtain ⟨ending, absent, _⟩ := terminal
    cases absent
  | @step history config task op next ans state run pending choice fires ih =>
    rcases terminal_new fires terminal with old | ends
    · obtain ⟨entry, member, ends⟩ := ih old
      exact ⟨entry, List.mem_append_left _ member, ends⟩
    · exact ⟨_, List.mem_append_right _ (List.mem_singleton.mpr rfl), ends⟩

theorem stamped_of_marked (run : Run (pool manager opened duties) history config)
    {entry : Entry sig ι} (member : entry ∈ history)
    (marks : (planeAct entry.act).bind (marked sid) = some ()) :
    ∃ instant, config.state.stamped sid instant := by
  induction run with
  | start => cases member
  | @step history config task op next ans state run pending choice fires ih =>
    rcases List.mem_append.mp member with old | new
    · obtain ⟨instant, stamped⟩ := ih old
      exact ⟨instant, stamped_step fires stamped⟩
    · obtain rfl := List.mem_singleton.mp new
      obtain rfl := unlocks_op marks
      exact stamped_of_mark fires

/-- The locks taken and not given back are those that are held. -/
theorem locks_count (run : Run (pool manager opened duties) history config) :
    (shown (locks sid) history).length =
      (shown (unlocks sid) history).length + if sid ∈ config.state.stamping then 1 else 0 := by
  induction run with
  | start => rfl
  | @step history config task op next ans state run pending choice fires ih =>
    have moved := stamping_step sid fires
    have single : ∀ view : Act sig → Option Unit,
        (shown view [Entry.of task op ans]).length = (view ⟨op, ans⟩).toList.length := by
      intro view
      cases seen : view ⟨op, ans⟩ with
      | none => simp [shown, seen]
      | some value => simp [shown, seen]
    rw [shown_append, shown_append, List.length_append, List.length_append, ih, single, single]
    dsimp only
    omega

/-- Every duty has returned. -/
def Quiescent (config : Config machine ι (Option Outcome)) : Prop :=
  ∀ task, ∃ result, config.procs task = .done result

instance {n : Nat} (config : Config machine (Fin n) (Option Outcome)) : Decidable (Quiescent config) :=
  inferInstanceAs (Decidable (∀ task, ∃ result, config.procs task = .done result))

theorem quiescent_unlocked (run : Run (pool manager opened duties) history config)
    (quiescent : Quiescent config) : sid ∉ config.state.stamping := by
  have settled : ∀ task, (own task history).filterMap (unlocks sid) =
      (own task history).filterMap (locks sid) := by
    intro task
    obtain ⟨result, returned⟩ := quiescent task
    exact (duty_unlocks sid manager (duties task) _ result (run.completes returned)).complete
  have balance := @locks_count _ _ _ _ _ _ _ sid run
  rw [(shown_perm settled).length_eq] at balance
  split at balance
  · omega
  · assumption

theorem quiescent_stamped (run : Run (pool manager opened duties) history config)
    (quiescent : Quiescent config) (terminal : config.state.terminal sid) :
    ∃ instant, config.state.stamped sid instant := by
  obtain ⟨⟨task, act⟩, member, ends⟩ := ended_of_terminal run terminal
  obtain ⟨result, returned⟩ := quiescent task
  have settled := (duty_stamps sid manager (duties task) _ result (run.completes returned)).complete
  have due : () ∈ (own task history).filterMap (fun act => (planeAct act).bind (ended sid)) :=
    List.mem_filterMap.mpr ⟨act, mem_own.mpr member, ends⟩
  rw [← settled] at due
  obtain ⟨stamp, performed, marks⟩ := List.mem_filterMap.mp due
  exact stamped_of_marked run (mem_own.mp performed) marks

/-- A sweep that runs alone goes by the present time. -/
theorem alone_retire {retention : Nat} {state after : State} :
    Alone machine (retireTerminalSessions retention) state () after ↔
      after = state.retain state.plane.now retention := by
  constructor
  · intro swept
    obtain ⟨_, now, middle, reads, sweeps⟩ := alone_perform.mp swept
    obtain ⟨rfl, rfl⟩ := Prod.mk.inj (Option.some.inj reads)
    obtain ⟨_, _, last, retains, returned⟩ := alone_act.mp sweeps
    obtain ⟨_, rfl⟩ := Prod.mk.inj (Option.some.inj retains)
    exact (alone_done.mp returned).2.symm
  · rintro rfl
    exact .act .none rfl (.act .none rfl .done)

/-- A sweep in a quiescent state removes every session whose stamp is old enough. -/
theorem retain_removes (run : Run (pool manager opened duties) history config)
    (quiescent : Quiescent config) {retention instant : Nat}
    (stamped : config.state.stamped sid instant)
    (old : instant + retention ≤ config.state.plane.now) :
    sid ∉ (config.state.retain config.state.plane.now retention).plane.registry := by
  intro kept
  have stays := (List.mem_filter.mp kept).2
  obtain ⟨handle, found, stamp⟩ := stamped
  have age : config.state.tryTerminalAge sid config.state.plane.now =
      some (config.state.plane.now - instant) := by
    simp [State.tryTerminalAge, quiescent_unlocked run quiescent, found, stamp]
  rw [State.keeps, age] at stays
  have young : config.state.plane.now - instant < retention := of_decide_eq_true stays
  omega

/-- The session was stamped at least `elapsed` ago. -/
theorem stamped_long {elapsed : Nat}
    (passes : Passes (pool manager opened duties) history config fun earlier =>
      (∃ instant, earlier.stamped sid instant) ∧ earlier.plane.now + elapsed ≤ config.state.plane.now) :
    ∃ instant, config.state.stamped sid instant ∧ instant + elapsed ≤ config.state.plane.now := by
  obtain ⟨pre, post, middle, _, first, second, ⟨instant, stamped⟩, long⟩ := passes
  have past := (stamp_sound first stamped).2.1
  exact ⟨instant, stamped_run second stamped, by omega⟩

/-- Over every interleaving of calls and sweeps: what an action takes out of the
registry is a session that has ended, at least `retention` before that sweep; and once
every duty has returned, each ended session is stamped, and the next sweep returns and
removes every session that has been stamped for its retention. -/
theorem retention_sound (run : Run (pool manager opened duties) history config) :
    (∀ task op next ans choice state, config.procs task = .act op next →
        machine.exec op choice config.state = some (ans, state) →
        sid ∈ config.state.plane.registry → sid ∉ state.plane.registry →
        ∃ now retention, op = .retain now retention ∧ config.state.terminal sid ∧
          Passes (pool manager opened duties) history config fun earlier =>
            earlier.terminal sid ∧ earlier.plane.now + retention ≤ config.state.plane.now) ∧
      (Quiescent config →
        (config.state.terminal sid → ∃ instant, config.state.stamped sid instant) ∧
        ∀ retention, (∃ after, Alone machine (retireTerminalSessions retention) config.state () after) ∧
          ∀ after, Alone machine (retireTerminalSessions retention) config.state () after →
            (Passes (pool manager opened duties) history config fun earlier =>
              (∃ instant, earlier.stamped sid instant) ∧
                earlier.plane.now + retention ≤ config.state.plane.now) →
            sid ∉ after.plane.registry) := by
  refine ⟨?_, ?_⟩
  · intro task op next ans choice state pending fires registered gone
    obtain ⟨now, retention, instant, rfl, stamped, aged⟩ := removed_step fires registered gone
    obtain ⟨terminal, past, passes⟩ := stamp_sound run stamped
    have read := clock_read run choice pending fires
    refine ⟨now, retention, rfl, terminal, passes.mono ?_⟩
    rintro earlier ⟨ended, before⟩
    exact ⟨ended, by omega⟩
  · intro quiescent
    refine ⟨quiescent_stamped run quiescent, fun retention => ⟨⟨_, alone_retire.mpr rfl⟩, ?_⟩⟩
    intro after swept long
    obtain rfl := alone_retire.mp swept
    obtain ⟨instant, stamped, old⟩ := stamped_long long
    exact retain_removes run quiescent stamped old

end Runs

/-- Attach a session, stop it, and let five units of time pass. -/
def attachAndStop : Fin 3 → Duty
  | 0 => .serve (.attach "" none "" ⟨"", ""⟩)
  | 1 => .serve (.stopSession "s1" false)
  | 2 => .serve (.timePasses 5)

/-- The session is stopped and stamped at once, and time passes after that. -/
theorem retention_stamped_at_once : ∃ history config,
    Run (pool mockManager 0 attachAndStop) history config ∧ Quiescent config ∧
      "s1" ∈ config.state.plane.registry ∧
      ∃ after, Alone machine (retireTerminalSessions 5) config.state () after ∧
        "s1" ∉ after.plane.registry := by
  have ran := @Run.exists_passing _ _ _ _ _ (pool mockManager 0 attachAndStop)
    (fun earlier => (earlier.plane.handles "s1").any (·.terminalAt = some 0) ∧ earlier.plane.now = 0)
    (fun config => Quiescent config ∧ "s1" ∈ config.state.plane.registry ∧ config.state.plane.now = 5)
    _ _ ((0, .ulid "s1") :: List.replicate 6 (1, .none)) ((2, .none) :: List.replicate 5 (1, .none))
    (by decide +kernel)
  obtain ⟨history, config, run, passes, quiescent, registered, time⟩ := ran
  have next := (@retention_sound _ _ _ _ _ _ _ "s1" run).2 quiescent
  obtain ⟨after, swept⟩ := (next.2 5).1
  refine ⟨history, config, run, quiescent, registered, after, swept, (next.2 5).2 after swept ?_⟩
  apply passes.mono
  rintro earlier ⟨stamped, early⟩
  obtain ⟨handle, found, stamp⟩ := (Option.any_eq_true _ _).mp stamped
  exact ⟨⟨0, handle, found, of_decide_eq_true stamp⟩, by omega⟩

/-- Time may pass between the swap and the stamp: the session has then been terminal for
longer than its stamp says, and the sweep keeps it. -/
theorem terminal_outlasts_retention : ∃ history config,
    Run (pool mockManager 0 attachAndStop) history config ∧ Quiescent config ∧
      (Passes (pool mockManager 0 attachAndStop) history config fun earlier =>
        earlier.terminal "s1" ∧ earlier.plane.now + 5 ≤ config.state.plane.now) ∧
      ∀ after, Alone machine (retireTerminalSessions 5) config.state () after →
        "s1" ∈ after.plane.registry := by
  have ran := @Run.exists_passing _ _ _ _ _ (pool mockManager 0 attachAndStop)
    (fun earlier => earlier.terminal "s1" ∧ earlier.plane.now = 0)
    (fun config => Quiescent config ∧ config.state.plane.now = 5 ∧
      "s1" ∈ (config.state.retain config.state.plane.now 5).plane.registry)
    _ _ ((0, .ulid "s1") :: List.replicate 4 (1, .none)) ((2, .none) :: List.replicate 7 (1, .none))
    (by decide +kernel)
  obtain ⟨history, config, run, passes, quiescent, time, kept⟩ := ran
  refine ⟨history, config, run, quiescent, passes.mono ?_, ?_⟩
  · rintro earlier ⟨ended, early⟩
    exact ⟨ended, by omega⟩
  · intro after swept
    obtain rfl := alone_retire.mp swept
    exact kept

end Retention

end LongTrader.Session
