import LongTrader.Interleave.Alone
import LongTrader.Interleave.Expand
import LongTrader.Session.LifecycleHistory

/-! The retention of terminal sessions. A terminal session carries a stamp, written
under a lock of its own after the state was swapped; a sweep removes the sessions
whose stamp it can read and finds old enough. -/

namespace LongTrader.Session

open Interleave

namespace Retention

/-- The actions of the control plane, where the write of a terminal stamp needs its
lock, and those of a sweep. -/
inductive Op where
  | plane (op : Session.Op)
  | lockTerminalAt (sid : String)
  | instantNow
  | retain (now retention : Nat)
  deriving DecidableEq

@[reducible] def Op.Ans : Op → Type
  | .plane op => op.Ans
  | .lockTerminalAt _ => Unit
  | .instantNow => Nat
  | .retain _ _ => Unit

/-- The plane and the sessions whose `terminal_at` is locked. -/
structure State where
  plane : Plane
  stamping : List String

/-- `try_terminal_age`: the age of the stamp, unless its lock is taken. -/
def State.tryTerminalAge (state : State) (sid : String) (now : Nat) : Option Nat :=
  if sid ∈ state.stamping then none
  else (state.plane.handles sid).bind fun handle => handle.terminalAt.map fun instant => now - instant

/-- Whether a sweep keeps a session. -/
def State.keeps (state : State) (now retention : Nat) (sid : String) : Bool :=
  match state.tryTerminalAge sid now with
  | some age => age < retention
  | none => true

def State.retain (state : State) (now retention : Nat) : State :=
  { state with plane.registry := state.plane.registry.filter (state.keeps now retention) }

def State.exec (state : State) (op : Op) (choice : Choice) : Option (op.Ans × State) :=
  match op with
  | .plane (.markTerminal sid) =>
    -- The stamp is written through the guard, which is dropped with it.
    if sid ∈ state.stamping then
      (state.plane.exec (.markTerminal sid) choice).map fun out =>
        (out.1, ⟨out.2, state.stamping.filter (· ≠ sid)⟩)
    else none
  | .plane op => (state.plane.exec op choice).map fun out => (out.1, { state with plane := out.2 })
  | .lockTerminalAt sid =>
    if sid ∈ state.stamping then none
    else some ((), { state with stamping := sid :: state.stamping })
  | .instantNow => some (state.plane.now, state)
  | .retain now retention => some ((), state.retain now retention)

/-- The actions of the control plane with its sweeps. -/
abbrev sig : Signature := ⟨Op, Op.Ans⟩

abbrev machine : Machine sig := ⟨State, Choice, fun op choice state => state.exec op choice⟩

instance (op : Op) : Nonempty op.Ans := by
  cases op with
  | plane op => exact inferInstanceAs (Nonempty op.Ans)
  | lockTerminalAt sid => exact ⟨()⟩
  | instantNow => exact ⟨(0 : Nat)⟩
  | retain now retention => exact ⟨()⟩

/-- The task that performs one action. -/
abbrev perform (op : Op) : Proc sig op.Ans := @Proc.perform sig op

/-- `mark_terminal` takes the lock of the stamp first; any other action of the plane
is what it was. -/
def spell : (op : Session.Op) → Proc sig op.Ans
  | .markTerminal sid => do
    perform (.lockTerminalAt sid)
    perform (.plane (.markTerminal sid))
  | op => perform (.plane op)

/-- `SessionManager::retire_terminal_sessions`: the clock is read before the registry
is locked. -/
def retireTerminalSessions (retention : Nat) : Proc sig Unit := do
  let now ← perform .instantNow
  perform (.retain now retention)

/-- What a task of the pool does: one call on the control plane, or one sweep. -/
inductive Duty where
  | serve (call : Call)
  | sweep (retention : Nat)

def Duty.task (manager : SessionManager) : Duty → Proc sig (Option Outcome)
  | .serve call => some <$> (call.task manager).expand spell
  | .sweep retention => (fun _ => none) <$> retireTerminalSessions retention

/-- A control plane that nobody has attached to yet. -/
def State.fresh (now : Nat) : State := ⟨⟨fun _ => none, [], [], now⟩, []⟩

/-- A pool of concurrent calls and sweeps on a fresh control plane. -/
def pool {ι : Type} (manager : SessionManager) (now : Nat) (duties : ι → Duty) :
    Config machine ι (Option Outcome) :=
  ⟨State.fresh now, fun task => (duties task).task manager⟩

/-- The transition of session `sid` into a terminal state that took effect with an
action, if any. -/
def ended (sid : String) : Act Session.sig → Option Unit
  | ⟨.cas target _ next, some _⟩ => if target = sid ∧ next.isTerminal = true then some () else none
  | _ => none

/-- The stamp of session `sid` that an action writes, if any. -/
def marked (sid : String) : Act Session.sig → Option Unit
  | ⟨.markTerminal target, _⟩ => if target = sid then some () else none
  | _ => none

/-- The actions that neither end a session nor stamp one. -/
def unstamped : Set Session.Op :=
  {op | match op with
    | .cas _ _ next => next.isTerminal = false
    | .markTerminal _ => False
    | _ => True}

theorem steady_unstamped {op : Session.Op} (free : op.steady = true) : op ∈ unstamped := by
  cases op
  case cas | markTerminal => cases free
  all_goals trivial

section Stamping

variable {sid : String}

theorem unstamped_settles (act : Act Session.sig) (calm : act.op ∈ unstamped) :
    Settles (ended sid) (marked sid) [act] := by
  obtain ⟨op, ans⟩ := act
  have noneDue : ended sid ⟨op, ans⟩ = none := by
    cases op
    case cas target expected next =>
      have live : next.isTerminal = false := calm
      cases ans with
      | none => rfl
      | some prev => simp [ended, live]
    all_goals rfl
  have noneSeen : marked sid ⟨op, ans⟩ = none := by
    cases op
    case markTerminal => cases calm
    all_goals rfl
  exact .silent (List.forall_mem_singleton.mpr noneDue) (List.forall_mem_singleton.mpr noneSeen)

theorem unstamped_emits {α : Type} {task : Task α} (within : task.Within unstamped) :
    task.Emits (Settles (ended sid) (marked sid)) :=
  within.emits settles_composes unstamped_settles

theorem unstamped_act {α : Type} {op : Session.Op} {f : op.Ans → Task α} (calm : op ∈ unstamped)
    (next : ∀ ans, (f ans).Emits (Settles (ended sid) (marked sid))) :
    (Session.perform op >>= f).Emits (Settles (ended sid) (marked sid)) :=
  .act settles_composes (fun ans => unstamped_settles ⟨op, ans⟩ calm) next

/-- A swap into a terminal state whose winner stamps the session next. -/
theorem ending_emits {α : Type} {target : String} {expected next : SessionState}
    (terminal : next.isTerminal = true) {f : Option SessionState → Task α}
    {g : SessionState → Unit → Task α}
    (won : ∀ prev, f (some prev) = (Session.perform (.markTerminal target) >>= g prev))
    (lost : (f none).Emits (Settles (ended sid) (marked sid)))
    (rest : ∀ prev done, (g prev done).Emits (Settles (ended sid) (marked sid))) :
    (Session.perform (.cas target expected next) >>= f).Emits (Settles (ended sid) (marked sid)) := by
  intro acts result finishes
  obtain ⟨swapped, tail, rfl, continues⟩ := Proc.completes_perform_bind.mp finishes
  cases swapped with
  | none =>
    have nothing : Settles (ended sid) (marked sid) [⟨Session.Op.cas target expected next, none⟩] :=
      .silent (List.forall_mem_singleton.mpr rfl) (List.forall_mem_singleton.mpr rfl)
    exact settles_composes.append nothing (lost tail result continues)
  | some prev =>
    rw [won prev] at continues
    obtain ⟨done, last, rfl, stamped⟩ := Proc.completes_perform_bind.mp continues
    have settled := rest prev done last result stamped
    have pair : Settles (ended sid) (marked sid)
        (⟨Session.Op.cas target expected next, some prev⟩ ::
          ([] ++ [⟨Session.Op.markTerminal target, done⟩])) := by
      by_cases here : target = sid
      · apply Settles.paid
        · exact if_pos ⟨here, terminal⟩
        · rfl
        · exact List.forall_mem_nil _
        · exact List.forall_mem_nil _
        · exact if_pos here
        · rfl
      · apply Settles.silent
        · refine List.forall_mem_cons.mpr ⟨?_, List.forall_mem_singleton.mpr rfl⟩
          exact if_neg fun both => here both.1
        · exact List.forall_mem_cons.mpr ⟨rfl, List.forall_mem_singleton.mpr (if_neg here)⟩
    exact settles_composes.append pair settled

variable (manager : SessionManager) (target : String)

theorem publishStateChange_stamps (source next : SessionState) (reason : String) :
    (publishStateChange target source next reason).Emits (Settles (ended sid) (marked sid)) :=
  unstamped_emits (publishStateChange_within (fun _ => steady_unstamped) trivial
    (fun _ => trivial) (fun _ => trivial) source next reason)

theorem finishStop_stamps (failures : List String) :
    (finishStop target failures).Emits (Settles (ended sid) (marked sid)) := by
  have reports : (reportStop target failures).Emits (Settles (ended sid) (marked sid)) :=
    unstamped_emits (reportStop_within (fun _ => steady_unstamped) failures)
  unfold finishStop
  refine unstamped_act trivial fun state => ?_
  split
  · exact .done settles_composes _
  · split
    · exact .done settles_composes _
    · apply ending_emits rfl (fun _ => rfl) reports
      intro prev _
      exact (publishStateChange_stamps target prev .gracefulShutdown "stop requested").bind
        settles_composes fun _ => reports

theorem stopSession_stamps (cancelOpenOrders : Bool) :
    (stopSession manager target cancelOpenOrders).Emits (Settles (ended sid) (marked sid)) := by
  unfold stopSession
  refine unstamped_act trivial fun registered => ?_
  split
  · refine unstamped_act trivial fun state => ?_
    split
    · exact .done settles_composes _
    · split
      · have cancels : (cancelSessionOrders manager target).Within unstamped :=
          cancelSessionOrders_within (fun _ => steady_unstamped) fun _ => trivial
        exact (unstamped_emits cancels).bind settles_composes (finishStop_stamps target)
      · exact finishStop_stamps target []
  · exact .done settles_composes _

theorem tripKillSwitch_stamps :
    (tripKillSwitch manager target).Emits (Settles (ended sid) (marked sid)) := by
  unfold tripKillSwitch
  refine unstamped_act trivial fun state => ?_
  split
  · refine ending_emits rfl (fun _ => rfl) ?_ fun prev _ => ?_
    · exact .done settles_composes _
    refine (publishStateChange_stamps target prev .killSwitchTripped "lease expired").bind
      settles_composes fun _ => ?_
    refine unstamped_act trivial fun policy => ?_
    exact unstamped_emits
      (executeScope_within (fun _ => steady_unstamped) (fun _ => trivial) trivial policy.scope)
  · exact .done settles_composes _

theorem checkLeaseExpiry_stamps :
    (checkLeaseExpiry manager target).Emits (Settles (ended sid) (marked sid)) := by
  unfold checkLeaseExpiry
  refine unstamped_act trivial fun registered => ?_
  split
  · refine unstamped_act trivial fun policy => ?_
    refine unstamped_act trivial fun state => ?_
    split
    · refine unstamped_act trivial fun elapsed => ?_
      dsimp only [Proc.pure_eq, Proc.done_bind]
      split
      · exact (tripKillSwitch_stamps manager target).bind settles_composes
          fun _ => .done settles_composes _
      · exact .done settles_composes _
    · exact .done settles_composes _
  · exact .done settles_composes _

/-- Every call stamps the sessions it ended, each right after it ended it, and no
other session. -/
theorem call_stamps (call : Call) :
    (call.task manager).Emits (Settles (ended sid) (marked sid)) := by
  have routine : ∀ op : Session.Op, op.steady = true → op ∈ unstamped := fun _ => steady_unstamped
  cases call with
  | stopSession target cancels => exact (stopSession_stamps manager target cancels).map _
  | checkLeaseExpiry target => exact (checkLeaseExpiry_stamps manager target).map _
  | tripKillSwitch target => exact (tripKillSwitch_stamps manager target).map _
  | beginReconcile target =>
    exact (unstamped_emits (beginReconcile_within routine trivial (fun _ => trivial)
      (fun _ => trivial) rfl)).map _
  | completeReconcile target sequence =>
    exact (unstamped_emits (completeReconcile_within routine trivial (fun _ => trivial)
      (fun _ => trivial) sequence trivial rfl)).map _
  | reconcileState target =>
    exact (unstamped_emits (reconcileState_within routine trivial (fun _ => trivial)
      (fun _ => trivial) rfl (fun _ => trivial) rfl)).map _
  | publish target event =>
    exact (unstamped_emits (publish_within routine trivial (fun _ => trivial)
      fun _ => trivial)).map _
  | reportLog target level message fields =>
    exact (unstamped_emits (reportLog_within routine trivial (fun _ _ => trivial)
      fun _ _ => trivial)).map _
  | createOrder request =>
    exact (unstamped_emits (createOrder_within routine (fun _ => trivial) request trivial
      fun _ _ => ⟨trivial, fun _ => trivial⟩)).map _
  | createOrders request =>
    exact (unstamped_emits (createOrders_within routine (fun _ => trivial) request trivial
      trivial fun _ _ => ⟨trivial, fun _ => trivial⟩)).map _
  | attach token policy target client =>
    exact (unstamped_emits (attachWithReconnect_within routine token policy client
      fun _ => trivial)).map _
  | keepAlive target => exact (unstamped_emits (keepAlive_within routine)).map _
  | setKillSwitchPolicy target policy =>
    exact (unstamped_emits (setKillSwitchPolicy_within routine policy fun _ => trivial)).map _
  | stream target resumeToken polls =>
    exact (unstamped_emits (streamStrategyEvents_within routine resumeToken polls)).map _
  | venueClose exchange orderId =>
    exact (unstamped_emits (Proc.within_perform.mpr (routine _ rfl))).map _
  | timePasses elapsed =>
    exact (unstamped_emits (Proc.within_perform.mpr (routine _ rfl))).map _

end Stamping

end Retention

end LongTrader.Session
