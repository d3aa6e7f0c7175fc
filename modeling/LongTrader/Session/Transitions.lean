import LongTrader.Session.Footprint

/-! How the state of one session moves along a history: only a successful
compare-and-swap moves it, and each of those follows the lifecycle graph. -/

namespace LongTrader.Session

open Interleave

def Plane.sessionState (plane : Plane) (sid : String) : Option SessionState :=
  (plane.handles sid).bind fun handle => SessionState.fromU8 handle.state

/-- The transition of session `sid` that took effect with an action, if any. -/
def transition (sid : String) : Act sig → Option (SessionState × SessionState)
  | ⟨.cas target _ next, some prev⟩ => if target = sid then some (prev, next) else none
  | _ => none

namespace Plane

theorem effect_state {op : Op} (noSwap : ∀ target expected next, op ≠ .cas target expected next)
    (sid : String) (now : Nat) (handle : SessionHandle) :
    (effect op sid now handle).state = handle.state := by
  cases op
  case cas target expected next => exact absurd rfl (noSwap target expected next)
  all_goals
    simp only [effect]
    try (split <;> rfl)

/-- A handle is never dropped, and an attach never replaces one. -/
theorem exec_keeps_handle {op : Op} {choice : Choice} {plane after : Plane} {ans : op.Ans}
    {sid : String} {handle : SessionHandle} (fires : plane.exec op choice = some (ans, after))
    (found : plane.handles sid = some handle) :
    after.handles sid = some (effect op sid plane.now handle) := by
  by_cases attaches : ∃ policy client, op = .insertSession policy client
  · obtain ⟨policy, client, rfl⟩ := attaches
    simp only [exec] at fires
    split at fires
    · rename_i id
      split at fires
      · cases fires
      · rename_i absent
        obtain ⟨_, rfl⟩ := Prod.mk.inj (Option.some.inj fires)
        have other : sid ≠ id := by
          intro same
          subst same
          simp [found] at absent
        simpa [setHandle, Function.update_of_ne other, effect] using found
    · cases fires
  · have handles := exec_handles fires (fun policy client same => attaches ⟨policy, client, same⟩) sid
    simpa [found] using handles

/-- A handle that was not there before is the one an attach registers. -/
theorem exec_new_handle {op : Op} {choice : Choice} {plane after : Plane} {ans : op.Ans}
    {sid : String} {handle : SessionHandle} (fires : plane.exec op choice = some (ans, after))
    (absent : plane.handles sid = none) (found : after.handles sid = some handle) :
    ∃ policy client, op = .insertSession policy client ∧
      handle = .attach sid policy client plane.now := by
  by_cases attaches : ∃ policy client, op = .insertSession policy client
  · obtain ⟨policy, client, rfl⟩ := attaches
    refine ⟨policy, client, rfl, ?_⟩
    simp only [exec] at fires
    split at fires
    · rename_i id
      split at fires
      · cases fires
      · obtain ⟨_, rfl⟩ := Prod.mk.inj (Option.some.inj fires)
        by_cases here : sid = id
        · subst here
          simpa [setHandle] using found.symm
        · simp [setHandle, Function.update_of_ne here, absent] at found
    · cases fires
  · have handles := exec_handles fires (fun policy client same => attaches ⟨policy, client, same⟩) sid
    simp [absent, found] at handles

theorem sessionState_of_handle {plane : Plane} {sid : String} {handle : SessionHandle}
    (found : plane.handles sid = some handle) :
    plane.sessionState sid = SessionState.fromU8 handle.state := by
  simp [sessionState, found]

/-- An action either leaves the state of a session alone or is a swap that took
effect, from the state the session was in. -/
theorem exec_sessionState {op : Op} {choice : Choice} {plane after : Plane} {ans : op.Ans}
    {sid : String} {handle : SessionHandle} (fires : plane.exec op choice = some (ans, after))
    (found : plane.handles sid = some handle) :
    (transition sid ⟨op, ans⟩ = none ∧ after.sessionState sid = plane.sessionState sid) ∨
      ∃ source target, (⟨op, ans⟩ : Act sig) = ⟨.cas sid source target, some source⟩ ∧
        plane.sessionState sid = some source ∧ after.sessionState sid = some target := by
  have kept := exec_keeps_handle fires found
  rw [sessionState_of_handle kept, sessionState_of_handle found]
  by_cases swaps : ∃ target expected next, op = .cas target expected next
  · obtain ⟨target, expected, next, rfl⟩ := swaps
    by_cases here : target = sid
    · subst here
      simp only [exec, found] at fires
      split at fires
      · rename_i matched
        obtain ⟨rfl, _⟩ := Prod.mk.inj (Option.some.inj fires)
        right
        refine ⟨expected, next, ?_, ?_, ?_⟩
        · simp [matched]
        · simp [matched]
        · simp [effect, matched]
      · rename_i differs
        obtain ⟨rfl, _⟩ := Prod.mk.inj (Option.some.inj fires)
        left
        simp [transition, effect, differs]
    · left
      refine ⟨?_, by simp [effect, here]⟩
      cases ans with
      | none => rfl
      | some prev => simp [transition, here]
  · left
    have untouched := effect_state (fun target expected next same => swaps ⟨target, expected, next, same⟩)
      sid plane.now handle
    rw [untouched]
    refine ⟨?_, rfl⟩
    unfold transition
    split
    · rename_i target expected next prev same
      exact absurd ⟨target, expected, next, (Act.mk.inj same).1⟩ swaps
    · rfl

/-- A session that is not there makes no transition. -/
theorem exec_absent {op : Op} {choice : Choice} {plane after : Plane} {ans : op.Ans}
    {sid : String} (fires : plane.exec op choice = some (ans, after))
    (absent : plane.handles sid = none) : transition sid ⟨op, ans⟩ = none := by
  unfold transition
  split
  · rename_i target expected next prev same
    obtain ⟨rfl, _⟩ := Act.mk.inj same
    split
    · rename_i here
      subst here
      simp [exec, absent] at fires
    · rfl
  · rfl

theorem handle_of_sessionState {plane : Plane} {sid : String} {state : SessionState}
    (known : plane.sessionState sid = some state) :
    ∃ handle, plane.handles sid = some handle ∧ SessionState.fromU8 handle.state = some state :=
  Option.bind_eq_some_iff.mp known

theorem exec_load {plane after : Plane} {sid : String} {choice : Choice}
    {state : Option SessionState} (fires : plane.exec (.load sid) choice = some (state, after)) :
    after = plane ∧ state = plane.sessionState sid := by
  obtain ⟨handle, found, same⟩ := Option.map_eq_some_iff.mp fires
  obtain ⟨rfl, rfl⟩ := Prod.mk.inj same
  exact ⟨rfl, (sessionState_of_handle found).symm⟩

/-- A swap answers the state it replaced, or finds another state and does nothing. -/
theorem exec_cas {plane after : Plane} {sid : String} {expected next : SessionState}
    {choice : Choice} {swapped : Option SessionState}
    (fires : plane.exec (.cas sid expected next) choice = some (swapped, after)) :
    (swapped = some expected ∧ plane.sessionState sid = some expected ∧
        after.sessionState sid = some next) ∨
      (swapped = none ∧ after = plane ∧ plane.sessionState sid ≠ some expected) := by
  simp only [exec] at fires
  split at fires
  · cases fires
  · rename_i handle found
    rw [sessionState_of_handle found]
    split at fires
    · rename_i matched
      obtain ⟨rfl, rfl⟩ := Prod.mk.inj (Option.some.inj fires)
      left
      simp [matched, sessionState, setHandle]
    · rename_i differs
      obtain ⟨rfl, rfl⟩ := Prod.mk.inj (Option.some.inj fires)
      refine .inr ⟨rfl, rfl, ?_⟩
      intro decoded
      exact differs (SessionState.toU8_of_fromU8 decoded)

end Plane

section Executions

variable {ι : Type} {manager : SessionManager} {calls : ι → Call} {sid : String}
  {history : List (Entry sig ι)} {before after : machine.State}

theorem handle_survives {handle : SessionHandle}
    (execution : Execution machine (Permitted manager calls) before history after)
    (found : before.handles sid = some handle) : ∃ later, after.handles sid = some later := by
  induction execution with
  | start => exact ⟨handle, found⟩
  | step earlier choice fires meets ih =>
    obtain ⟨later, present⟩ := ih
    exact ⟨_, Plane.exec_keeps_handle fires present⟩

theorem registry_grows
    (execution : Execution machine (Permitted manager calls) before history after)
    (registered : sid ∈ Plane.registry before) : sid ∈ Plane.registry after := by
  induction execution with
  | start => exact registered
  | step earlier choice fires meets ih => exact Plane.exec_registry fires ih

/-- If the state of a session is no longer what it was, then some swap took effect
from it, and that swap followed the lifecycle graph. -/
theorem first_move {source : SessionState}
    (execution : Execution machine (Permitted manager calls) before history after)
    (known : before.sessionState sid = some source) (moved : after.sessionState sid ≠ some source) :
    ∃ pre task target post middle,
      history = pre ++ Entry.of task (Op.cas sid source target) (some source) :: post ∧
      SessionState.Edge source target ∧ (calls task).drives sid ∧
      middle.sessionState sid = some target ∧
      Execution machine (Permitted manager calls) middle post after := by
  induction execution with
  | start => exact absurd known moved
  | @step history task op ans last after earlier choice fires meets ih =>
    by_cases still : last.sessionState sid = some source
    · obtain ⟨handle, found, _⟩ := Plane.handle_of_sessionState still
      rcases Plane.exec_sessionState fires found with ⟨_, same⟩ | ⟨start, target, swap, left, reached⟩
      · exact absurd (same.trans still) moved
      · obtain rfl : start = source := Option.some.inj (left.symm.trans still)
        obtain ⟨rfl, same⟩ := Act.mk.inj swap
        obtain rfl := eq_of_heq same
        exact ⟨history, task, target, [], after, rfl, meets.1, meets.2, reached, .start⟩
    · obtain ⟨pre, mover, target, post, middle, rfl, edge, drives, reached, rest⟩ := ih still
      refine ⟨pre, mover, target, post ++ [Entry.of task op ans], middle, by simp, edge, drives,
        reached, ?_⟩
      exact .step rest choice fires meets

/-- A terminal state is never left. -/
theorem terminal_stays {state : SessionState}
    (execution : Execution machine (Permitted manager calls) before history after)
    (known : before.sessionState sid = some state) (terminal : state.isTerminal = true) :
    after.sessionState sid = some state := by
  by_contra moved
  obtain ⟨_, _, target, _, _, _, edge, _⟩ := first_move execution known moved
  rw [edge.live] at terminal
  cases terminal

/-- A session that became terminal did so by some swap into that state. -/
theorem terminal_entered {source state : SessionState}
    (execution : Execution machine (Permitted manager calls) before history after)
    (known : before.sessionState sid = some source) (live : source.isTerminal = false)
    (ended : after.sessionState sid = some state) (terminal : state.isTerminal = true) :
    ∃ task origin, Entry.of task (Op.cas sid origin state) (some origin) ∈ history := by
  induction execution with
  | start =>
    obtain rfl := Option.some.inj (known.symm.trans ended)
    rw [live] at terminal
    cases terminal
  | @step history task op ans last after earlier choice fires meets ih =>
    obtain ⟨handle, found, _⟩ := Plane.handle_of_sessionState known
    obtain ⟨later, present⟩ := handle_survives earlier found
    rcases Plane.exec_sessionState fires present with ⟨_, same⟩ | ⟨origin, target, swap, _, reached⟩
    · obtain ⟨mover, origin, member⟩ := ih (same.symm.trans ended)
      exact ⟨mover, origin, by simp [member]⟩
    · obtain rfl := Option.some.inj (reached.symm.trans ended)
      obtain ⟨rfl, same⟩ := Act.mk.inj swap
      obtain rfl := eq_of_heq same
      exact ⟨task, origin, by simp⟩

/-- The state byte of a session decodes, wherever the session is registered. -/
def Plane.Decodes (plane : Plane) (sid : String) : Prop :=
  ∀ handle, plane.handles sid = some handle → ∃ state, SessionState.fromU8 handle.state = some state

theorem decodes_stays (execution : Execution machine (Permitted manager calls) before history after)
    (valid : Plane.Decodes before sid) : Plane.Decodes after sid := by
  induction execution with
  | start => exact valid
  | @step history task op ans last after earlier choice fires meets ih =>
    intro handle found
    cases present : Plane.handles last sid with
    | none =>
      obtain ⟨policy, client, _, rfl⟩ := Plane.exec_new_handle fires present found
      exact ⟨.attached, rfl⟩
    | some old =>
      rcases Plane.exec_sessionState fires present with ⟨_, same⟩ | ⟨_, target, _, _, reached⟩
      · rw [Plane.sessionState_of_handle found, Plane.sessionState_of_handle present] at same
        rw [same]
        exact ih old present
      · exact ⟨target, (Plane.sessionState_of_handle found).symm.trans reached⟩

section Places

variable {pre post : List (Entry sig ι)} {task : ι}

/-- The action at a place of the history, between the two planes around it. -/
theorem act_at {op : Op} {ans : op.Ans}
    (execution : Execution machine (Permitted manager calls) before
      (pre ++ Entry.of task op ans :: post) after) :
    ∃ middle next choice, Execution machine (Permitted manager calls) before pre middle ∧
      Plane.exec middle op choice = some (ans, next) ∧ op ∈ (calls task).permits manager ∧
      Execution machine (Permitted manager calls) next post after :=
  execution.at_entry

/-- The state at a place of the history where some task reads it. -/
theorem load_at {state : Option SessionState}
    (execution : Execution machine (Permitted manager calls) before
      (pre ++ Entry.of task (Op.load sid) state :: post) after) :
    ∃ middle, Execution machine (Permitted manager calls) before pre middle ∧
      Plane.sessionState middle sid = state ∧
      Execution machine (Permitted manager calls) middle post after := by
  obtain ⟨middle, next, choice, earlier, fires, _, later⟩ := act_at execution
  obtain ⟨rfl, rfl⟩ := Plane.exec_load fires
  exact ⟨next, earlier, rfl, later⟩

theorem load_decodes {state : Option SessionState}
    (execution : Execution machine (Permitted manager calls) before
      (pre ++ Entry.of task (Op.load sid) state :: post) after)
    (valid : Plane.Decodes before sid) : ∃ value, state = some value := by
  obtain ⟨middle, next, choice, earlier, fires, _, _⟩ := act_at execution
  obtain ⟨handle, found, same⟩ := Option.map_eq_some_iff.mp fires
  obtain ⟨value, decoded⟩ := decodes_stays earlier valid handle found
  exact ⟨value, (Prod.mk.inj same).1.symm.trans decoded⟩

theorem swap_at {expected next swapped : SessionState}
    (execution : Execution machine (Permitted manager calls) before
      (pre ++ Entry.of task (Op.cas sid expected next) (some swapped) :: post) after) :
    ∃ middle reached, Execution machine (Permitted manager calls) before pre middle ∧
      Plane.sessionState middle sid = some expected ∧ Plane.sessionState reached sid = some next ∧
      Execution machine (Permitted manager calls) reached post after := by
  obtain ⟨middle, reached, choice, earlier, fires, _, later⟩ := act_at execution
  rcases Plane.exec_cas fires with ⟨_, found, moved⟩ | ⟨lost, _, _⟩
  · exact ⟨middle, reached, earlier, found, moved, later⟩
  · cases lost

theorem lost_swap_at {expected next : SessionState}
    (execution : Execution machine (Permitted manager calls) before
      (pre ++ Entry.of task (Op.cas sid expected next) none :: post) after) :
    ∃ middle, Execution machine (Permitted manager calls) before pre middle ∧
      Plane.sessionState middle sid ≠ some expected ∧
      Execution machine (Permitted manager calls) middle post after := by
  obtain ⟨middle, reached, choice, earlier, fires, _, later⟩ := act_at execution
  rcases Plane.exec_cas fires with ⟨won, _, _⟩ | ⟨_, rfl, differs⟩
  · cases won
  · exact ⟨reached, earlier, differs, later⟩

end Places

end Executions

end LongTrader.Session
