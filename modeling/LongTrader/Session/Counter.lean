import LongTrader.Session.Retried
import LongTrader.Session.Submission
import Mathlib.Data.Finset.Card

/-! The order counter of a session beside its tracked set. One function updates the two, in two
steps, whatever the venue answers: also the order that it answered an earlier submission with. -/

namespace LongTrader.Session

open Interleave

/-- The ids of a set after some insertions. -/
def insertAll (tracked ids : List String) : List String :=
  ids.foldl (fun tracked id => tracked.insert id) tracked

theorem trackOrders_eq (tracked : List String) (orders : List Order) :
    trackOrders tracked orders = (insertAll tracked (cancellable orders), (cancellable orders).length) := by
  induction orders generalizing tracked with
  | nil => rfl
  | cons order rest ih =>
    by_cases blank : order.id = ""
    · rw [trackOrders, if_pos blank, ih]
      simp [cancellable, blank]
    · rw [trackOrders, if_neg blank, ih]
      simp [cancellable, blank, insertAll]

/-- Insertions make a set larger by their number exactly when each of them is new. -/
theorem insertAll_spec {tracked : List String} (distinct : tracked.Nodup) (ids : List String) :
    (insertAll tracked ids).Nodup ∧ (insertAll tracked ids).length ≤ tracked.length + ids.length ∧
      ((insertAll tracked ids).length = tracked.length + ids.length ↔
        ids.Nodup ∧ ∀ id ∈ ids, id ∉ tracked) := by
  induction ids generalizing tracked with
  | nil => simp [insertAll, distinct]
  | cons id rest ih =>
    have unfolds : insertAll tracked (id :: rest) = insertAll (tracked.insert id) rest := rfl
    rw [unfolds]
    by_cases known : id ∈ tracked
    · obtain ⟨nodup, bounded, _⟩ := ih distinct
      rw [List.insert_of_mem known]
      refine ⟨nodup, by simp only [List.length_cons]; omega, iff_of_false ?_ ?_⟩
      · simp only [List.length_cons]
        omega
      · rintro ⟨_, new⟩
        exact new id (List.mem_cons_self ..) known
    · obtain ⟨nodup, bounded, exact⟩ := ih (List.nodup_cons.mpr ⟨known, distinct⟩)
      rw [List.insert_of_not_mem known]
      simp only [List.length_cons] at bounded exact ⊢
      refine ⟨nodup, by omega, ?_⟩
      rw [show tracked.length + (rest.length + 1) = tracked.length + 1 + rest.length by omega, exact]
      simp only [List.nodup_cons, List.mem_cons, not_or, forall_eq_or_imp]
      constructor
      · rintro ⟨distinctRest, new⟩
        exact ⟨⟨fun again => (new id again).1 rfl, distinctRest⟩, known, fun other member => (new other member).2⟩
      · rintro ⟨⟨once, distinctRest⟩, _, new⟩
        exact ⟨distinctRest, fun other member =>
          ⟨fun same => once (same ▸ member), new other member⟩⟩

/-- The ids that an action records for session `sid`. -/
def recordedIds (sid : String) : Act sig → Option (List String)
  | ⟨.trackOrders target orders, _⟩ => if target = sid then some (cancellable orders) else none
  | _ => none

/-- How many orders an action says it has recorded for session `sid`. -/
def attributed (sid : String) : Act sig → Option Nat
  | ⟨.trackOrders target _, count⟩ => if target = sid then some count else none
  | _ => none

/-- How many orders an action adds to the counter of session `sid`. -/
def credited (sid : String) : Act sig → Option Nat
  | ⟨.addOrdersSubmitted target count, _⟩ => if target = sid then some count else none
  | _ => none

namespace Plane

/-- A record says how many ids it has recorded. -/
theorem attributed_eq {op : Op} {choice : Choice} {plane after : Plane} {ans : op.Ans} {sid : String}
    (fires : plane.execRetried op choice = some (ans, after)) :
    attributed sid ⟨op, ans⟩ = (recordedIds sid ⟨op, ans⟩).map List.length := by
  cases op
  case trackOrders target orders =>
    simp only [execRetried, exec] at fires
    split at fires
    · cases fires
    · obtain ⟨rfl, _⟩ := Prod.mk.inj (Option.some.inj fires)
      simp only [attributed, recordedIds, trackOrders_eq]
      split <;> rfl
  all_goals rfl

theorem effect_trackedCoids (op : Op) (ans : op.Ans) (sid : String) (now : Nat) (handle : SessionHandle) :
    (effect op sid now handle).trackedCoids =
      insertAll handle.trackedCoids ((recordedIds sid ⟨op, ans⟩).getD []) := by
  cases op
  case trackOrders target orders =>
    simp only [effect, recordedIds, trackOrders_eq]
    split <;> rfl
  all_goals
    simp only [effect, recordedIds, Option.getD_none]
    try (split <;> rfl)
  all_goals rfl

theorem effect_ordersSubmitted (op : Op) (ans : op.Ans) (sid : String) (now : Nat)
    {handle : SessionHandle} (wraps : handle.ordersSubmitted < u64Size) :
    (effect op sid now handle).ordersSubmitted =
      (handle.ordersSubmitted + (credited sid ⟨op, ans⟩).getD 0) % u64Size := by
  have still : (handle.ordersSubmitted + 0) % u64Size = handle.ordersSubmitted := Nat.mod_eq_of_lt wraps
  cases op
  case addOrdersSubmitted target count =>
    simp only [effect, credited]
    split
    · rfl
    · exact still.symm
  all_goals
    simp only [effect, credited, Option.getD_none]
    try split
    all_goals exact still.symm

end Plane

section Calls

variable {manager : SessionManager} {sid : String}

/-- An action that neither records orders for session `sid` nor counts them. -/
def Act.uncounting (sid : String) (act : Act sig) : Prop :=
  attributed sid act = none ∧ credited sid act = none

theorem uncounting_prompt {acts : List (Act sig)} (quiet : ∀ act ∈ acts, Act.uncounting sid act) :
    Prompt (attributed sid) (credited sid) acts :=
  .silent (fun act member => (quiet act member).1) fun act member => (quiet act member).2

theorem attribution_prompt {target : String} {orders : List Order} {acts : List (Act sig)}
    (attribution : Attribution manager target orders acts) :
    Prompt (attributed sid) (credited sid) acts := by
  have records : ∀ count : Nat, Prompt (attributed sid) (credited sid)
      [⟨Op.trackOrders target orders, count⟩, ⟨Op.addOrdersSubmitted target count, ()⟩] := by
    intro count
    by_cases here : target = sid
    · have causes : attributed sid ⟨Op.trackOrders target orders, count⟩ = some count := if_pos here
      exact .pair causes rfl (if_pos here) rfl
    · refine uncounting_prompt fun act member => ?_
      simp only [List.mem_cons, List.not_mem_nil, or_false] at member
      rcases member with rfl | rfl
      · exact ⟨if_neg here, rfl⟩
      · exact ⟨rfl, if_neg here⟩
  cases attribution with
  | nothing count _ => exact records count
  | stillOpen count state _ =>
    have looks : Prompt (attributed sid) (credited sid) [⟨Op.load target, state⟩] :=
      uncounting_prompt (List.forall_mem_singleton.mpr ⟨rfl, rfl⟩)
    exact prompt_composes.append (records count) looks
  | unwound count state _ outcomes _ =>
    have looks : Prompt (attributed sid) (credited sid) [⟨Op.load target, some state⟩] :=
      uncounting_prompt (List.forall_mem_singleton.mpr ⟨rfl, rfl⟩)
    have cancels : Prompt (attributed sid) (credited sid)
        (outcomes.map fun row => ⟨Op.cancelOrder manager.defaultExchange row.1, row.2⟩) := by
      refine uncounting_prompt fun act member => ?_
      obtain ⟨row, _, rfl⟩ := List.mem_map.mp member
      exact ⟨rfl, rfl⟩
    exact prompt_composes.append (prompt_composes.append (records count) looks) cancels

theorem refusal_prompt {acts : List (Act sig)} (refusal : GateRefusal sid acts) :
    Prompt (attributed sid) (credited sid) acts := by
  refine uncounting_prompt fun act member => ?_
  obtain ⟨op, ans⟩ := act
  rcases refusal _ member with looked | looked
  · obtain rfl := looked
    exact ⟨rfl, rfl⟩
  · obtain rfl := looked
    exact ⟨rfl, rfl⟩

theorem gate_uncounting : ∀ act ∈ gateActs sid, Act.uncounting sid act := by
  rw [gateActs, List.forall_mem_cons, List.forall_mem_singleton]
  exact ⟨⟨rfl, rfl⟩, ⟨rfl, rfl⟩⟩

theorem uncounting_concat {front : List (Act sig)} {act : Act sig}
    (quiet : ∀ entry ∈ front, Act.uncounting sid entry) (last : Act.uncounting sid act) :
    ∀ entry ∈ front ++ [act], Act.uncounting sid entry :=
  List.forall_mem_append.mpr ⟨quiet, List.forall_mem_singleton.mpr last⟩

/-- An attribution after the gate and the answers of the venue. -/
theorem prompt_after {front tail : List (Act sig)} {orders : List Order}
    (quiet : ∀ act ∈ front, Act.uncounting sid act) (attribution : Attribution manager sid orders tail) :
    Prompt (attributed sid) (credited sid) (front ++ tail) :=
  prompt_composes.append (uncounting_prompt quiet) (attribution_prompt attribution)

theorem CreatePath.prompt {request : CreateOrderRequest} {acts : List (Act sig)}
    (path : CreatePath manager request acts) :
    Prompt (attributed request.sessionId) (credited request.sessionId) acts := by
  cases path with
  | refused refusal => exact refusal_prompt refusal
  | failed error => exact uncounting_prompt (uncounting_concat gate_uncounting ⟨rfl, rfl⟩)
  | placed order attribution =>
    rw [List.append_cons]
    exact prompt_after (uncounting_concat gate_uncounting ⟨rfl, rfl⟩) attribution

theorem BatchPath.prompt {request : CreateOrdersRequest} {acts : List (Act sig)}
    (path : BatchPath manager request acts) :
    Prompt (attributed request.sessionId) (credited request.sessionId) acts := by
  cases path with
  | refused refusal => exact refusal_prompt refusal
  | placed orders attribution =>
    rw [List.append_cons]
    exact prompt_after (uncounting_concat gate_uncounting ⟨rfl, rfl⟩) attribution
  | unknown error failure attribution =>
    rw [List.append_cons, List.append_cons]
    exact prompt_after (uncounting_concat (uncounting_concat gate_uncounting ⟨rfl, rfl⟩) ⟨rfl, rfl⟩) attribution
  | recovered error orders attribution =>
    rw [List.append_cons, List.append_cons]
    exact prompt_after (uncounting_concat (uncounting_concat gate_uncounting ⟨rfl, rfl⟩) ⟨rfl, rfl⟩) attribution

/-- Every call adds to the counter right after it has recorded, and just what it recorded. -/
theorem Call.prompt (call : Call) :
    (call.task manager).Emits (Prompt (attributed sid) (credited sid)) := by
  by_cases submits : call.submitsFor sid ∧ sid ≠ ""
  · intro acts outcome finishes
    obtain ⟨submits, named⟩ := submits
    cases call with
    | createOrder request =>
      obtain rfl : request.sessionId = sid := submits
      obtain ⟨answer, completes, _⟩ := Proc.completes_map.mp finishes
      exact (createOrder_completes named completes).prompt
    | createOrders request =>
      obtain rfl : request.sessionId = sid := submits
      obtain ⟨answer, completes, _⟩ := Proc.completes_map.mp finishes
      exact (createOrders_completes named completes).prompt
    | _ => cases submits
  · refine (call.within_performs manager).emits prompt_composes fun act performed => ?_
    refine uncounting_prompt (List.forall_mem_singleton.mpr ?_)
    obtain ⟨op, ans⟩ := act
    cases op
    case trackOrders target orders =>
      refine ⟨if_neg ?_, rfl⟩
      rintro rfl
      exact submits performed.1
    case addOrdersSubmitted target count =>
      refine ⟨rfl, if_neg ?_⟩
      rintro rfl
      exact submits performed.2
    all_goals exact ⟨rfl, rfl⟩

end Calls

section Runs

variable {ι : Type} [DecidableEq ι] {manager : SessionManager} {plane : Plane} {calls : ι → Call}
  {history : List (Entry sig ι)} {sid : String} {handle : SessionHandle}

/-- All ids that were recorded for a session, one after another. -/
def idsRecorded (sid : String) (history : List (Entry sig ι)) : List String :=
  (shown (recordedIds sid) history).flatten

/-- The set holds what was recorded, and the counter the sum of what was added to it. -/
theorem totals_of_run {config : Config retriedMachine ι Outcome}
    (run : Run (retriedPool manager plane calls) history config)
    (found : plane.handles sid = some handle) (untracked : handle.trackedCoids = [])
    (uncounted : handle.ordersSubmitted = 0) :
    (∃ later, Plane.handles config.state sid = some later ∧
      later.trackedCoids = insertAll [] (idsRecorded sid history) ∧
      later.ordersSubmitted = (shown (credited sid) history).sum % u64Size) ∧
    (shown (attributed sid) history).sum = (idsRecorded sid history).length := by
  induction run with
  | start =>
    exact ⟨⟨handle, found, untracked, uncounted⟩, rfl⟩
  | @step history config task op next ans state run pending choice fires ih =>
    obtain ⟨⟨later, present, tracked, counted⟩, total⟩ := ih
    have wraps : later.ordersSubmitted < u64Size := by
      rw [counted]
      exact Nat.mod_lt _ (by decide)
    refine ⟨⟨_, Plane.execRetried_keeps_handle fires present, ?_, ?_⟩, ?_⟩
    · rw [Plane.effect_trackedCoids op ans, tracked]
      cases records : recordedIds sid ⟨op, ans⟩ with
      | none => simp [idsRecorded, shown, records, insertAll]
      | some ids => simp [idsRecorded, shown, records, insertAll]
    · rw [Plane.effect_ordersSubmitted op ans sid _ wraps, counted]
      cases credits : credited sid ⟨op, ans⟩ with
      | none => simp [shown, credits]
      | some count => simp [shown, credits]
    · have answered : attributed sid ⟨op, ans⟩ = _ := Plane.attributed_eq fires
      cases records : recordedIds sid ⟨op, ans⟩ with
      | none =>
        rw [records] at answered
        simpa [idsRecorded, shown, records, answered] using total
      | some ids =>
        rw [records] at answered
        simp only [idsRecorded, shown_append, List.sum_append, List.flatten_append, List.length_append] at total ⊢
        simp [shown, records, answered] at total ⊢
        omega

/-- No call is between the two steps of an attribution to session `sid`. -/
def NoneAttributing (sid : String) (history : List (Entry sig ι)) : Prop :=
  ∀ task act, (own task history).getLast? = some act → attributed sid act = none

/-- Whenever no attribution is half done, the counter says how many orders can be unwound exactly
when no id was ever recorded twice. -/
theorem counter_matches_iff {config : Config retriedMachine ι Outcome}
    (run : Run (retriedPool manager plane calls) history config)
    (found : plane.handles sid = some handle) (untracked : handle.trackedCoids = [])
    (uncounted : handle.ordersSubmitted = 0) (settled : NoneAttributing sid history)
    (small : (idsRecorded sid history).length < u64Size) :
    ∃ later, Plane.handles config.state sid = some later ∧
      (later.ordersSubmitted = later.trackedCoids.toFinset.card ↔ (idsRecorded sid history).Nodup) := by
  obtain ⟨⟨later, present, tracked, counted⟩, total⟩ := totals_of_run run found untracked uncounted
  have paid : (shown (credited sid) history).sum = (shown (attributed sid) history).sum := by
    apply List.Perm.sum_nat
    refine shown_perm fun task => ?_
    exact Prompt.of_path (calls task).prompt (run.path task) (settled task)
  obtain ⟨distinct, _, exact⟩ := insertAll_spec List.nodup_nil (idsRecorded sid history)
  refine ⟨later, present, ?_⟩
  rw [counted, paid, total, Nat.mod_eq_of_lt small, tracked, List.toFinset_card_of_nodup distinct]
  simpa [eq_comm] using exact

end Runs

/-- A submission of session `s1`, and the same again. -/
def submittedTwice : Bool → Call := fun _ => .createOrder (mockSubmission none)

/-- The steps of a submission that the venue answers with an order. -/
def acceptedWith (task : Bool) (orderId : String) : List (Bool × Choice) :=
  [(task, .none), (task, .none), (task, .create (.accepted (mockOrder orderId))), (task, .none),
    (task, .none), (task, .none)]

/-- The venue answers the retry with the order of the first attempt: two are counted, and one can be
unwound. -/
theorem counter_drifts_on_retry :
    ∃ history config,
      Run (retriedPool mockManager (.single (.inState .active [])) submittedTwice) history config ∧
      (∀ task, ∃ result, config.procs task = .done result) ∧
      (Plane.handles config.state "s1").map
        (fun handle => (handle.ordersSubmitted, handle.trackedCoids)) = some (2, ["o2"]) :=
  Run.exists_of_replay (acceptedWith false "o2" ++ acceptedWith true "o2") (by decide +kernel)

/-- The venue answers with an order each. -/
theorem counter_matches_two_orders :
    ∃ history config,
      Run (retriedPool mockManager (.single (.inState .active [])) submittedTwice) history config ∧
      ∃ later, Plane.handles config.state "s1" = some later ∧
        later.ordersSubmitted = later.trackedCoids.toFinset.card := by
  obtain ⟨history, config, run, quiet, recorded⟩ : ∃ history config,
      Run (retriedPool mockManager (.single (.inState .active [])) submittedTwice) history config ∧
      (∀ task, (own task history).getLast?.bind (attributed "s1") = none) ∧
      idsRecorded "s1" history = ["o2", "o3"] :=
    Run.exists_of_replay (acceptedWith false "o2" ++ acceptedWith true "o3") (by decide +kernel)
  have settled : NoneAttributing "s1" history := by
    intro task act last
    have none := quiet task
    rwa [last] at none
  obtain ⟨later, present, matched⟩ := counter_matches_iff run rfl rfl rfl settled
    (by rw [recorded]; decide)
  exact ⟨history, config, run, later, present, matched.mpr (by rw [recorded]; decide)⟩

end LongTrader.Session
