import LongTrader.Session.Transitions
import Mathlib.Data.List.Induction

/-! The snapshot watermark of a session over all interleavings. Completing a reconcile moves it
before the state is looked at, so a call that goes on to fail has moved it too. -/

namespace LongTrader.Session

open Interleave

/-- The highest of some values, zero if there are none. -/
def highest (values : List Nat) : Nat := values.foldl max 0

theorem highest_append_singleton (values : List Nat) (value : Nat) :
    highest (values ++ [value]) = max (highest values) value := by
  simp [highest]

theorem highest_le_append (first second : List Nat) : highest first ≤ highest (first ++ second) := by
  induction second using List.reverseRecOn with
  | nil => simp
  | append_singleton rest value ih =>
    rw [← List.append_assoc, highest_append_singleton]
    exact ih.trans (le_max_left _ _)

theorem le_highest {values : List Nat} {value : Nat} (member : value ∈ values) :
    value ≤ highest values := by
  obtain ⟨front, back, rfl⟩ := List.append_of_mem member
  have here : highest (front ++ [value]) ≤ highest (front ++ [value] ++ back) := highest_le_append _ _
  rw [highest_append_singleton] at here
  simpa using (le_max_right _ _).trans here

/-- The sequence that an action offers as the watermark of session `sid`. -/
def offered (sid : String) : Act sig → Option Nat
  | ⟨.fetchMaxSnapshotSeq target sequence, _⟩ => if target = sid then some sequence else none
  | _ => none

theorem offered_eq_some {sid : String} {act : Act sig} {sequence : Nat}
    (offers : offered sid act = some sequence) : act = ⟨Op.fetchMaxSnapshotSeq sid sequence, ()⟩ := by
  obtain ⟨op, ans⟩ := act
  cases op
  case fetchMaxSnapshotSeq target value =>
    simp only [offered] at offers
    split at offers
    · rename_i here
      subst here
      obtain rfl := Option.some.inj offers
      rfl
    · cases offers
  all_goals cases offers

/-- The stored watermark of a session. -/
def Plane.watermark (plane : Plane) (sid : String) : Nat :=
  ((plane.handles sid).map (·.snapshotSeq)).getD 0

theorem effect_snapshotSeq (op : Op) (ans : op.Ans) (sid : String) (now : Nat) (handle : SessionHandle) :
    (Plane.effect op sid now handle).snapshotSeq =
      max handle.snapshotSeq ((offered sid ⟨op, ans⟩).getD 0) := by
  cases op
  case fetchMaxSnapshotSeq target sequence =>
    simp only [Plane.effect, offered]
    split
    · rfl
    · simp
  all_goals
    simp only [Plane.effect, offered, Option.getD_none, Nat.max_zero]
    try (split <;> rfl)

section Runs

variable {ι : Type} {sid : String} {handle : SessionHandle}

/-- The highest sequence offered to a session along a history. -/
def highestOffered (sid : String) (history : List (Entry sig ι)) : Nat :=
  highest (shown (offered sid) history)

theorem highestOffered_snoc (history : List (Entry sig ι)) (entry : Entry sig ι) :
    highestOffered sid (history ++ [entry]) =
      max (highestOffered sid history) ((offered sid entry.act).getD 0) := by
  unfold highestOffered
  rw [shown_append]
  cases offers : offered sid entry.act with
  | none => simp [shown, offers]
  | some value => simp [shown, offers, highest_append_singleton]

/-- The watermark is the highest sequence that was offered. -/
theorem watermark_of_execution {ok : machine.State → Entry sig ι → Prop}
    {before after : machine.State} {history : List (Entry sig ι)}
    (execution : Execution machine ok before history after)
    (found : before.handles sid = some handle) (fresh : handle.snapshotSeq = 0) :
    ∃ later, after.handles sid = some later ∧ later.snapshotSeq = highestOffered sid history := by
  induction execution with
  | start => exact ⟨handle, found, fresh⟩
  | @step history task op ans middle after earlier choice fires meets ih =>
    obtain ⟨later, present, same⟩ := ih
    refine ⟨_, Plane.exec_keeps_handle fires present, ?_⟩
    rw [effect_snapshotSeq op ans, same, highestOffered_snoc]

/-- Where the watermark got its value, unless it was never moved. -/
theorem exists_raise (history : List (Entry sig ι)) (moved : highestOffered sid history ≠ 0) :
    ∃ pre task post, history = pre ++
        Entry.of task (Op.fetchMaxSnapshotSeq sid (highestOffered sid history)) () :: post ∧
      highestOffered sid pre < highestOffered sid history := by
  induction history using List.reverseRecOn with
  | nil => exact absurd rfl moved
  | append_singleton rest entry ih =>
    rw [highestOffered_snoc] at moved ⊢
    rcases Nat.lt_or_ge (highestOffered sid rest) ((offered sid entry.act).getD 0) with higher | lower
    · rw [Nat.max_eq_right higher.le]
      refine ⟨rest, entry.task, [], ?_, higher⟩
      cases offers : offered sid entry.act with
      | none => simp [offers] at higher
      | some value => rw [Option.getD_some, Entry.of, ← offered_eq_some offers]
    · rw [Nat.max_eq_left lower] at moved ⊢
      obtain ⟨pre, task, post, shape, below⟩ := ih moved
      refine ⟨pre, task, post ++ [entry], ?_, below⟩
      rw [← List.cons_append, ← List.append_assoc, ← shape]

end Runs

/-- A state in which a reconcile can complete, or has. -/
def SessionState.reconcilable : SessionState → Bool
  | .syncing | .active => true
  | .attached | .killSwitchTripped | .gracefulShutdown => false

/-- What a finished call did about the watermark of session `sid`: nothing; or it offered a sequence,
looked at the state next, and confirmed the sequence if that was one to complete a reconcile in. -/
inductive Offering (sid : String) : List (Act sig) → Option Nat → Prop where
  | silent {acts : List (Act sig)} (nothing : acts.filterMap (offered sid) = []) :
      Offering sid acts none
  | offers {first rest : List (Act sig)} (sequence : Nat) (state : Option SessionState)
      (before : first.filterMap (offered sid) = []) (after : rest.filterMap (offered sid) = []) :
      Offering sid
        (first ++ ⟨Op.fetchMaxSnapshotSeq sid sequence, ()⟩ :: ⟨Op.load sid, state⟩ :: rest)
        (if state.any SessionState.reconcilable then some sequence else none)

/-- The sequence that a call has completed the reconcile of session `sid` with. -/
def Call.confirms (sid : String) : Call → Outcome → Option Nat
  | .completeReconcile target sequence, .reconciled (.ok ()) =>
    if target = sid then some sequence else none
  | .reconcileState target, .snapshot (.ok sequence) => if target = sid then some sequence else none
  | _, _ => none

section Calls

variable {manager : SessionManager} {sid : String} {acts : List (Act sig)}

/-- A task that offers no sequence to session `sid`. -/
theorem offered_nil {α : Type} {task : Task α} {result : α} {allowed : Set Op}
    (within : task.Within allowed) (never : ∀ sequence, Op.fetchMaxSnapshotSeq sid sequence ∉ allowed)
    (finishes : task.Completes acts result) : acts.filterMap (offered sid) = [] := by
  rw [List.filterMap_eq_nil_iff]
  intro act member
  by_contra offers
  obtain ⟨sequence, offers⟩ := Option.ne_none_iff_exists'.mp offers
  obtain rfl := offered_eq_some offers
  exact never sequence (within.mem (Proc.path_done_iff.mpr finishes) _ member)

/-- The actions that offer no sequence. -/
def unoffering : Set Op := {op | ∀ sid sequence, op ≠ .fetchMaxSnapshotSeq sid sequence}

theorem steady_unoffering {op : Op} (free : op.steady = true) : op ∈ unoffering := by
  rintro sid sequence rfl
  cases free

theorem publishStateChange_unoffering (source target : SessionState) (reason : String) :
    (publishStateChange sid source target reason).Within unoffering :=
  publishStateChange_within (fun _ => steady_unoffering) nofun (fun _ => nofun) (fun _ => nofun) _ _ _

theorem beginReconcile_unoffering : (beginReconcile sid).Within unoffering :=
  beginReconcile_within (fun _ => steady_unoffering) nofun (fun _ => nofun) (fun _ => nofun) nofun

theorem completeReconcile_offering {sequence : Nat} {answer : Except ManagerError Unit}
    (finishes : (completeReconcile sid sequence).Completes acts answer) :
    Offering sid acts (answer.toOption.map fun _ => sequence) := by
  have quiet : ∀ {α : Type} {task : Task α} {rest : List (Act sig)} {result : α},
      task.Within unoffering → task.Completes rest result → rest.filterMap (offered sid) = [] :=
    fun within finishes => offered_nil within (fun _ free => free _ _ rfl) finishes
  unfold completeReconcile at finishes
  obtain ⟨registered, rest, rfl, continues⟩ := Proc.completes_perform_bind.mp finishes
  split at continues
  · obtain ⟨⟨⟩, rest, rfl, looks⟩ := Proc.completes_perform_bind.mp continues
    obtain ⟨state, rest, rfl, decides⟩ := Proc.completes_perform_bind.mp looks
    have ends : rest.filterMap (offered sid) = [] ∧ answer.toOption.map (fun _ => sequence) =
        if state.any SessionState.reconcilable then some sequence else none := by
      split at decides
      · obtain ⟨swapped, rest, rfl, announces⟩ := Proc.completes_perform_bind.mp decides
        split at announces
        · obtain ⟨first, last, ⟨⟩, rfl, publishes, rfl, rfl⟩ := Proc.completes_bind.mp announces
          have silent := quiet (publishStateChange_unoffering _ _ _) publishes
          exact ⟨by simpa [offered] using silent, rfl⟩
        · obtain ⟨rfl, rfl⟩ := announces
          exact ⟨rfl, rfl⟩
      · obtain ⟨rfl, rfl⟩ := decides
        exact ⟨rfl, rfl⟩
      · rename_i other syncing active
        obtain ⟨rfl, rfl⟩ := decides
        refine ⟨rfl, ?_⟩
        cases other
        case syncing => exact absurd rfl syncing
        case active => exact absurd rfl active
        all_goals rfl
      · obtain ⟨rfl, rfl⟩ := decides
        exact ⟨rfl, rfl⟩
    rw [ends.2]
    exact @Offering.offers sid [⟨Op.get sid, registered⟩] _ sequence state rfl ends.1
  · obtain ⟨rfl, rfl⟩ := continues
    exact .silent rfl

theorem Offering.after {first rest : List (Act sig)} {confirmed : Option Nat}
    (silent : first.filterMap (offered sid) = []) (offering : Offering sid rest confirmed) :
    Offering sid (first ++ rest) confirmed := by
  cases offering with
  | silent nothing => exact .silent (by simp [silent, nothing])
  | offers sequence state before after =>
    rw [← List.append_assoc]
    exact .offers sequence state (by simp [silent, before]) after

theorem reconcileState_offering {answer : Except ManagerError Nat}
    (finishes : (reconcileState manager sid).Completes acts answer) :
    Offering sid acts answer.toOption := by
  unfold reconcileState at finishes
  obtain ⟨first, rest, begun, rfl, begins, continues⟩ := Proc.completes_bind.mp finishes
  have silent : first.filterMap (offered sid) = [] :=
    offered_nil beginReconcile_unoffering (fun _ free => free _ _ rfl) begins
  refine .after silent ?_
  split at continues
  · obtain ⟨rfl, rfl⟩ := continues
    exact .silent rfl
  · obtain ⟨synced, rest, rfl, decides⟩ := Proc.completes_perform_bind.mp continues
    refine @Offering.after sid [⟨Op.syncState manager.defaultExchange, synced⟩] _ _ rfl ?_
    split at decides
    · obtain ⟨rfl, rfl⟩ := decides
      exact .silent rfl
    · rename_i sequence
      obtain ⟨middle, last, completed, rfl, completes, ends⟩ := Proc.completes_bind.mp decides
      have offering := completeReconcile_offering completes
      split at ends
      · obtain ⟨rfl, rfl⟩ := ends
        rw [List.append_nil]
        exact offering
      · obtain ⟨rfl, rfl⟩ := ends
        rw [List.append_nil]
        exact offering

/-- What a finished call did about the watermark of session `sid`. -/
theorem Call.offering {call : Call} {outcome : Outcome}
    (finishes : (call.task manager).Completes acts outcome) :
    Offering sid acts (call.confirms sid outcome) := by
  by_cases concerns : call.reconciles sid
  · cases call with
    | completeReconcile target sequence =>
      obtain rfl : target = sid := concerns
      obtain ⟨answer, completes, rfl⟩ := Proc.completes_map.mp finishes
      have offering := completeReconcile_offering completes
      cases answer with
      | error error => exact offering
      | ok _ => simpa [Call.confirms, Except.toOption] using offering
    | reconcileState target =>
      obtain rfl : target = sid := concerns
      obtain ⟨answer, completes, rfl⟩ := Proc.completes_map.mp finishes
      have offering := reconcileState_offering completes
      cases answer with
      | error error => exact offering
      | ok sequence => simpa [Call.confirms, Except.toOption] using offering
    | _ => cases concerns
  · have unconfirmed : call.confirms sid outcome = none := by
      unfold Call.confirms
      split
      · exact if_neg concerns
      · exact if_neg concerns
      · rfl
    rw [unconfirmed]
    refine .silent (offered_nil (call.within_performs manager) ?_ finishes)
    exact fun sequence performed => concerns performed.2

/-- The one offer of a call, and the look at the state that comes next. -/
theorem Offering.at_offer {pre post : List (Act sig)} {sequence : Nat} {confirmed : Option Nat}
    (offering : Offering sid (pre ++ ⟨Op.fetchMaxSnapshotSeq sid sequence, ()⟩ :: post) confirmed) :
    ∃ state rest, post = ⟨Op.load sid, state⟩ :: rest ∧
      confirmed = if state.any SessionState.reconcilable then some sequence else none := by
  have offers : offered sid ⟨Op.fetchMaxSnapshotSeq sid sequence, ()⟩ = some sequence := if_pos rfl
  have silent : ∀ {acts : List (Act sig)}, acts.filterMap (offered sid) = [] →
      ⟨Op.fetchMaxSnapshotSeq sid sequence, ()⟩ ∉ acts := by
    intro acts nothing member
    rw [List.filterMap_eq_nil_iff] at nothing
    rw [nothing _ member] at offers
    cases offers
  generalize shape : pre ++ ⟨Op.fetchMaxSnapshotSeq sid sequence, ()⟩ :: post = acts at offering
  cases offering with
  | silent nothing => exact absurd (by simp [← shape]) (silent nothing)
  | @offers first rest value state before after =>
    rcases List.append_eq_append_iff.mp shape with ⟨middle, begins, ends⟩ | ⟨middle, begins, ends⟩
    · cases middle with
      | nil =>
        obtain ⟨same, follows⟩ := List.cons.inj ends
        cases same
        exact ⟨state, rest, follows, rfl⟩
      | cons head tail =>
        obtain ⟨rfl, _⟩ := List.cons.inj ends
        exact absurd (by simp [begins]) (silent before)
    · cases middle with
      | nil =>
        obtain ⟨same, follows⟩ := List.cons.inj ends
        cases same
        exact ⟨state, rest, follows.symm, rfl⟩
      | cons head tail =>
        obtain ⟨_, follows⟩ := List.cons.inj ends
        have later : ⟨Op.fetchMaxSnapshotSeq sid sequence, ()⟩ ∈ (⟨Op.load sid, state⟩ : Act sig) :: rest := by
          simp [follows]
        rcases List.mem_cons.mp later with looks | inside
        · cases looks
        · exact absurd inside (silent after)

end Calls

section Law

variable {ι : Type} [DecidableEq ι] {manager : SessionManager} {plane : Plane} {calls : ι → Call}
  {history : List (Entry sig ι)} {config : Config machine ι Outcome} {sid : String}
  {handle : SessionHandle}

/-- Every call that offered a sequence has returned. -/
def Settled (sid : String) (history : List (Entry sig ι)) (config : Config machine ι Outcome) : Prop :=
  ∀ task sequence, Entry.of task (Op.fetchMaxSnapshotSeq sid sequence) () ∈ history →
    ∃ outcome, config.procs task = .done outcome

/-- The law of the watermark along a run: it never decreases, it is the largest sequence among the
calls that returned Ok, and no action of any other finished call changes it. -/
structure WatermarkLaw (manager : SessionManager) (plane : Plane) (calls : ι → Call) (sid : String)
    (history : List (Entry sig ι)) (config : Config machine ι Outcome) : Prop where
  monotone : ∀ pre post middle, history = pre ++ post → Run (pool manager plane calls) pre middle →
    Plane.watermark middle.state sid ≤ Plane.watermark config.state sid
  bounds : ∀ task outcome sequence, config.procs task = .done outcome →
    (calls task).confirms sid outcome = some sequence → sequence ≤ Plane.watermark config.state sid
  attained : Settled sid history config → Plane.watermark config.state sid = 0 ∨
    ∃ task outcome, config.procs task = .done outcome ∧
      (calls task).confirms sid outcome = some (Plane.watermark config.state sid)
  refusals : ∀ task outcome, config.procs task = .done outcome →
    (calls task).confirms sid outcome = none → ∀ pre act post before after,
      history = pre ++ ⟨task, act⟩ :: post → Run (pool manager plane calls) pre before →
      Run (pool manager plane calls) (pre ++ [⟨task, act⟩]) after →
      Plane.watermark after.state sid = Plane.watermark before.state sid

/-- Whenever a call that has returned moved the watermark, it found the session syncing or active
when it looked at the state next. -/
def MovesReconcilable (manager : SessionManager) (plane : Plane) (calls : ι → Call) (sid : String)
    (history : List (Entry sig ι)) (config : Config machine ι Outcome) : Prop :=
  ∀ task outcome pre sequence post middle state rest, config.procs task = .done outcome →
    history = pre ++ Entry.of task (Op.fetchMaxSnapshotSeq sid sequence) () :: post →
    Run (pool manager plane calls) pre middle → Plane.watermark middle.state sid < sequence →
    own task post = ⟨Op.load sid, state⟩ :: rest → state.any SessionState.reconcilable = true

theorem watermark_of_run (run : Run (pool manager plane calls) history config)
    (found : plane.handles sid = some handle) (fresh : handle.snapshotSeq = 0) :
    Plane.watermark config.state sid = highestOffered sid history := by
  obtain ⟨later, present, same⟩ := watermark_of_execution (pool_execution run) found fresh
  simp [Plane.watermark, present, same]

/-- What a finished call did around an offer of its. -/
theorem offer_of_run {task : ι} {outcome : Outcome} {pre post : List (Entry sig ι)} {sequence : Nat}
    (run : Run (pool manager plane calls)
      (pre ++ Entry.of task (Op.fetchMaxSnapshotSeq sid sequence) () :: post) config)
    (finished : config.procs task = .done outcome) :
    ∃ state rest, own task post = ⟨Op.load sid, state⟩ :: rest ∧
      (calls task).confirms sid outcome =
        if state.any SessionState.reconcilable then some sequence else none := by
  have offering : Offering sid _ _ := Call.offering (run.completes finished)
  rw [own_append, own_cons_self] at offering
  exact offering.at_offer

theorem moves_reconcilable_of_law (run : Run (pool manager plane calls) history config)
    (found : plane.handles sid = some handle) (fresh : handle.snapshotSeq = 0)
    (law : WatermarkLaw manager plane calls sid history config) :
    MovesReconcilable manager plane calls sid history config := by
  rintro task outcome pre sequence post middle state rest finished rfl begins below looks
  obtain ⟨_, _, seen, confirmed⟩ := offer_of_run run finished
  rw [looks] at seen
  cases seen
  by_contra dead
  rw [if_neg dead] at confirmed
  have whole := run
  rw [List.append_cons] at whole
  obtain ⟨after, stepped, _⟩ := whole.split
  have unmoved := law.refusals task outcome finished confirmed pre _ post middle after rfl begins stepped
  have offers : offered sid ⟨Op.fetchMaxSnapshotSeq sid sequence, ()⟩ = some sequence := if_pos rfl
  rw [watermark_of_run stepped found fresh, highestOffered_snoc, ← watermark_of_run begins found fresh,
    offers] at unmoved
  exact absurd (le_max_right _ _) (by rw [unmoved]; exact Nat.not_le_of_lt below)

/-- A call that has returned without confirming a sequence has not moved the watermark. -/
theorem refusal_unmoved (run : Run (pool manager plane calls) history config)
    (found : plane.handles sid = some handle) (fresh : handle.snapshotSeq = 0)
    (moves : MovesReconcilable manager plane calls sid history config) {task : ι} {outcome : Outcome}
    (finished : config.procs task = .done outcome)
    (refused : (calls task).confirms sid outcome = none) {pre post : List (Entry sig ι)} {act : Act sig}
    {before after : Config machine ι Outcome} (shape : history = pre ++ ⟨task, act⟩ :: post)
    (begins : Run (pool manager plane calls) pre before)
    (stepped : Run (pool manager plane calls) (pre ++ [⟨task, act⟩]) after) :
    Plane.watermark after.state sid = Plane.watermark before.state sid := by
  rw [watermark_of_run stepped found fresh, highestOffered_snoc, ← watermark_of_run begins found fresh]
  cases offers : offered sid act with
  | none => exact Nat.max_zero _
  | some sequence =>
    obtain rfl := offered_eq_some offers
    subst shape
    obtain ⟨state, rest, looks, confirmed⟩ := offer_of_run run finished
    by_contra moved
    have below : Plane.watermark before.state sid < sequence := by
      by_contra above
      exact moved (max_eq_left (Nat.le_of_not_lt above))
    have live := moves task outcome pre sequence post before state rest finished rfl begins below looks
    rw [refused, if_pos live] at confirmed
    cases confirmed

theorem law_of_moves_reconcilable (run : Run (pool manager plane calls) history config)
    (found : plane.handles sid = some handle) (fresh : handle.snapshotSeq = 0)
    (moves : MovesReconcilable manager plane calls sid history config) :
    WatermarkLaw manager plane calls sid history config := by
  constructor
  · rintro pre post middle rfl begins
    rw [watermark_of_run run found fresh, watermark_of_run begins found fresh]
    unfold highestOffered
    rw [shown_append]
    exact highest_le_append _ _
  · intro task outcome sequence finished confirmed
    have offering : Offering sid _ _ := Call.offering (run.completes finished)
    rw [confirmed] at offering
    rw [watermark_of_run run found fresh]
    apply le_highest
    have member : ⟨Op.fetchMaxSnapshotSeq sid sequence, ()⟩ ∈ own task history := by
      generalize own task history = acts at offering
      generalize chosen : some sequence = result at offering
      cases offering with
      | silent => cases chosen
      | offers value state before after =>
        split at chosen
        · obtain rfl := Option.some.inj chosen
          simp
        · cases chosen
    exact List.mem_filterMap.mpr ⟨_, mem_own.mp member, if_pos rfl⟩
  · intro settled
    rw [watermark_of_run run found fresh]
    by_cases moved : highestOffered sid history = 0
    · exact .inl moved
    · obtain ⟨pre, task, post, shape, below⟩ := exists_raise history moved
      generalize highestOffered sid history = sequence at shape below
      subst shape
      obtain ⟨outcome, finished⟩ := settled task sequence (by simp)
      obtain ⟨state, rest, looks, confirmed⟩ := offer_of_run run finished
      obtain ⟨middle, begins, _⟩ := run.split
      rw [← watermark_of_run begins found fresh] at below
      have live := moves task outcome pre sequence post middle state rest finished rfl begins below looks
      rw [if_pos live] at confirmed
      exact .inr ⟨task, outcome, finished, confirmed⟩
  · intro task outcome finished refused pre act post before after shape begins stepped
    exact refusal_unmoved run found fresh moves finished refused shape begins stepped

/-- The law of the watermark holds along a run exactly when no call moved it and then found a state
in which no reconcile completes. -/
theorem watermark_law_iff (run : Run (pool manager plane calls) history config)
    (found : plane.handles sid = some handle) (fresh : handle.snapshotSeq = 0) :
    WatermarkLaw manager plane calls sid history config ↔
      MovesReconcilable manager plane calls sid history config :=
  ⟨moves_reconcilable_of_law run found fresh, law_of_moves_reconcilable run found fresh⟩

end Law

/-- A reconcile that was never begun is refused, and has moved the watermark. -/
theorem watermark_moved_by_refusal :
    ∃ history config,
      Run (pool mockManager (.single (.inState .attached [])) fun _ : Unit => .completeReconcile "s1" 7)
        history config ∧
      config.procs () = .done (.reconciled (.error
        (.invalidArgument "session s1 is Attached; complete_reconcile requires SYNCING"))) ∧
      Plane.watermark config.state "s1" = 7 ∧
      ¬ WatermarkLaw mockManager (.single (.inState .attached [])) (fun _ : Unit => .completeReconcile "s1" 7)
        "s1" history config := by
  have run := @Run.of_replay sig machine Unit _ Outcome
    (pool mockManager (.single (.inState .attached [])) fun _ => .completeReconcile "s1" 7) _ _
    (List.replicate 3 ((), .none)) rfl
  refine ⟨_, _, run, rfl, rfl, fun law => ?_⟩
  rcases law.attained (fun _ _ _ => ⟨_, rfl⟩) with unmoved | ⟨task, outcome, finished, confirmed⟩
  · cases unmoved
  · obtain rfl := Proc.done.inj finished
    cases confirmed

/-- A reconcile that goes through. -/
theorem watermark_law_reconciled :
    ∃ history config,
      Run (pool mockManager (.single (.inState .attached [])) fun _ : Unit => .reconcileState "s1")
        history config ∧
      Plane.watermark config.state "s1" = 7 ∧
      WatermarkLaw mockManager (.single (.inState .attached [])) (fun _ : Unit => .reconcileState "s1")
        "s1" history config := by
  obtain ⟨history, config, run, moved, returned⟩ : ∃ history config,
      Run (pool mockManager (.single (.inState .attached [])) fun _ : Unit => .reconcileState "s1")
        history config ∧
      Plane.watermark config.state "s1" = 7 ∧
      (config.procs ()).result?.bind ((Call.reconcileState "s1").confirms "s1") = some 7 :=
    Run.exists_of_replay
      (List.replicate 7 ((), .none) ++ ((), .snapshot (.ok 7)) :: List.replicate 8 ((), .none))
      (by decide +kernel)
  obtain ⟨answered, result, confirms⟩ := Option.bind_eq_some_iff.mp returned
  refine ⟨history, config, run, moved, (watermark_law_iff run rfl rfl).mpr ?_⟩
  rintro task outcome pre sequence post middle state rest finished rfl _ _ looks
  obtain rfl := Proc.done.inj ((Proc.eq_done result).symm.trans finished)
  obtain ⟨_, _, seen, confirmed⟩ := offer_of_run run finished
  rw [looks] at seen
  cases seen
  by_contra dead
  rw [if_neg dead, confirms] at confirmed
  cases confirmed

end LongTrader.Session
