import LongTrader.Session.Retried

/-! The tracked set of a session along a history: it only grows, by what the
session's submissions record, and a snapshot lists all of it. -/

namespace LongTrader.Session

open Interleave

/-- The venue ids tracked by a session. -/
def Plane.tracked (plane : Plane) (sid : String) : List String :=
  ((plane.handles sid).map (·.trackedCoids)).getD []

namespace Plane

theorem tracked_of_handle {plane : Plane} {sid : String} {handle : SessionHandle}
    (found : plane.handles sid = some handle) : plane.tracked sid = handle.trackedCoids := by
  simp [tracked, found]

theorem handle_of_tracked {plane : Plane} {sid id : String} (member : id ∈ plane.tracked sid) :
    ∃ handle, plane.handles sid = some handle ∧ id ∈ handle.trackedCoids := by
  cases found : plane.handles sid with
  | none => simp [tracked, found] at member
  | some handle => exact ⟨handle, rfl, by simpa [tracked, found] using member⟩

theorem effect_tracked {op : Op} (noTrack : ∀ target orders, op ≠ .trackOrders target orders)
    (sid : String) (now : Nat) (handle : SessionHandle) :
    (effect op sid now handle).trackedCoids = handle.trackedCoids := by
  cases op
  case trackOrders target orders => exact absurd rfl (noTrack target orders)
  all_goals
    simp only [effect]
    try (split <;> rfl)

/-- What an action adds to the tracked set of a session. -/
theorem mem_effect_tracked {op : Op} {sid id : String} {now : Nat} {handle : SessionHandle} :
    id ∈ (effect op sid now handle).trackedCoids ↔ id ∈ handle.trackedCoids ∨
      ∃ orders, op = .trackOrders sid orders ∧ ∃ order ∈ orders, order.id = id ∧ id ≠ "" := by
  by_cases tracks : ∃ target orders, op = .trackOrders target orders
  · obtain ⟨target, orders, rfl⟩ := tracks
    by_cases here : target = sid
    · subst here
      simp [effect, mem_trackOrders]
    · simp [effect, here]
  · have same := effect_tracked (fun target orders same => tracks ⟨target, orders, same⟩) sid now handle
    rw [same]
    constructor
    · exact .inl
    · intro either
      rcases either with old | ⟨orders, added, _⟩
      · exact old
      · exact absurd ⟨sid, orders, added⟩ tracks

theorem exec_tracked {op : Op} {choice : Choice} {plane after : Plane} {ans : op.Ans}
    {sid id : String} (fires : plane.exec op choice = some (ans, after)) :
    id ∈ after.tracked sid ↔ id ∈ plane.tracked sid ∨
      ∃ orders, op = .trackOrders sid orders ∧ ∃ order ∈ orders, order.id = id ∧ id ≠ "" := by
  cases present : plane.handles sid with
  | some handle =>
    rw [tracked_of_handle (exec_keeps_handle fires present), tracked_of_handle present]
    exact mem_effect_tracked
  | none =>
    have empty : plane.tracked sid = [] := by simp [tracked, present]
    constructor
    · intro member
      obtain ⟨handle, found, listed⟩ := handle_of_tracked member
      obtain ⟨policy, client, _, rfl⟩ := exec_new_handle fires present found
      simp [SessionHandle.attach] at listed
    · intro either
      rcases either with old | ⟨orders, rfl, _⟩
      · simp [empty] at old
      · simp [exec, present] at fires

theorem execRetried_tracked {op : Op} {choice : Choice} {plane after : Plane} {ans : op.Ans}
    {sid id : String} (fires : plane.execRetried op choice = some (ans, after)) :
    id ∈ after.tracked sid ↔ id ∈ plane.tracked sid ∨
      ∃ orders, op = .trackOrders sid orders ∧ ∃ order ∈ orders, order.id = id ∧ id ≠ "" := by
  rcases execRetried_cases fires with plain | ⟨_, records, session, exchange, _, rfl⟩
  · exact exec_tracked plain
  · rw [tracked, handles_placeNew, ← tracked]
    exact ⟨.inl, fun either => either.resolve_right fun ⟨orders, same, _⟩ => records sid orders same⟩

theorem exec_trackedOrders {plane after : Plane} {sid : String} {choice : Choice}
    {ids : List String} (fires : plane.exec (.trackedOrders sid) choice = some (ids, after)) :
    after = plane ∧ ∀ id, id ∈ ids ↔ id ∈ plane.tracked sid := by
  simp only [exec] at fires
  split at fires
  · rename_i handle listed found
    split at fires
    · rename_i permuted
      obtain ⟨rfl, rfl⟩ := Prod.mk.inj (Option.some.inj fires)
      refine ⟨rfl, ?_⟩
      intro id
      rw [tracked_of_handle found]
      exact (List.isPerm_iff.mp permuted).mem_iff
    · cases fires
  · cases fires

end Plane

section Executions

variable {ι : Type} {manager : SessionManager} {calls : ι → Call} {sid id : String}
  {history pre post : List (Entry sig ι)} {before after : retriedMachine.State} {task : ι}

theorem tracked_grows
    (execution : Execution retriedMachine (Permitted manager calls) before history after)
    (member : id ∈ Plane.tracked before sid) : id ∈ Plane.tracked after sid := by
  induction execution with
  | start => exact member
  | step earlier choice fires meets ih => exact (Plane.execRetried_tracked fires).mpr (.inl ih)

/-- An order that was recorded stays tracked. -/
theorem tracked_since_recorded {orders : List Order} {attributed : Nat} {order : Order}
    (execution : Execution retriedMachine (Permitted manager calls) before
      (pre ++ Entry.of task (Op.trackOrders sid orders) attributed :: post) after)
    (member : order ∈ orders) (cancellable : order.id ≠ "") :
    order.id ∈ Plane.tracked after sid := by
  obtain ⟨middle, next, choice, _, fires, _, later⟩ := retried_act_at execution
  exact tracked_grows later
    ((Plane.execRetried_tracked fires).mpr (.inr ⟨orders, rfl, order, member, rfl, cancellable⟩))

/-- Whatever is tracked was tracked at the start or recorded since. -/
theorem tracked_from
    (execution : Execution retriedMachine (Permitted manager calls) before history after)
    (member : id ∈ Plane.tracked after sid) :
    id ∈ Plane.tracked before sid ∨ ∃ task orders attributed,
      Entry.of task (Op.trackOrders sid orders) attributed ∈ history ∧
        ∃ order ∈ orders, order.id = id ∧ id ≠ "" := by
  induction execution with
  | start => exact .inl member
  | @step history task op ans last after earlier choice fires meets ih =>
    rcases (Plane.execRetried_tracked fires).mp member with old | ⟨orders, rfl, added⟩
    · rcases ih old with initial | ⟨recorder, orders, attributed, recorded, added⟩
      · exact .inl initial
      · exact .inr ⟨recorder, orders, attributed, by simp [recorded], added⟩
    · exact .inr ⟨task, orders, ans, by simp, added⟩

/-- A snapshot of the tracked set lists what is tracked where it is taken. -/
theorem snapshot_at {ids : List String}
    (execution : Execution retriedMachine (Permitted manager calls) before
      (pre ++ Entry.of task (Op.trackedOrders sid) ids :: post) after) :
    ∃ middle, Execution retriedMachine (Permitted manager calls) before pre middle ∧
      (∀ id, id ∈ ids ↔ id ∈ Plane.tracked middle sid) ∧
      Execution retriedMachine (Permitted manager calls) middle post after := by
  obtain ⟨middle, next, choice, earlier, fires, _, later⟩ := retried_act_at execution
  obtain ⟨rfl, lists⟩ := Plane.exec_trackedOrders fires
  exact ⟨next, earlier, lists, later⟩

/-- A snapshot lists every order recorded before it. -/
theorem snapshot_covers {recorder : ι} {ids : List String} {orders : List Order}
    {attributed : Nat} {order : Order}
    (execution : Execution retriedMachine (Permitted manager calls) before
      (pre ++ Entry.of task (Op.trackedOrders sid) ids :: post) after)
    (recorded : Entry.of recorder (Op.trackOrders sid orders) attributed ∈ pre)
    (member : order ∈ orders) (cancellable : order.id ≠ "") : order.id ∈ ids := by
  obtain ⟨middle, earlier, lists, _⟩ := snapshot_at execution
  obtain ⟨front, back, rfl⟩ := List.append_of_mem recorded
  exact (lists order.id).mpr (tracked_since_recorded earlier member cancellable)

theorem snapshot_covers_initial {ids : List String}
    (execution : Execution retriedMachine (Permitted manager calls) before
      (pre ++ Entry.of task (Op.trackedOrders sid) ids :: post) after)
    (member : id ∈ Plane.tracked before sid) : id ∈ ids := by
  obtain ⟨middle, earlier, lists, _⟩ := snapshot_at execution
  exact (lists id).mpr (tracked_grows earlier member)

end Executions

end LongTrader.Session
