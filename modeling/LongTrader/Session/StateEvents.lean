import LongTrader.Session.Bus
import LongTrader.Session.LifecycleHistory
import LongTrader.Session.Stop
import Mathlib.Data.List.Sort

/-! The StateChange events of one session as a log of its transitions. A swap and the
number of its event are two steps, so the log follows the transitions exactly as far
as their tasks keep the order in which the swaps took effect. -/

namespace LongTrader.Session

open Interleave

/-- The number and the transition of a StateChange event pushed for `sid`. -/
def changePushed (sid : String) (act : Act sig) : Option (Nat × SessionState × SessionState) :=
  (pushed sid act).bind fun event => (stateChangeOf event).map fun move => (event.sequence, move)

/-- The StateChange events of session `sid` along a history, in increasing sequence
order. -/
def stateChanges {ι : Type} (sid : String) (history : List (Entry sig ι)) :
    List (Nat × SessionState × SessionState) :=
  (shown (changePushed sid) history).insertionSort fun first second => first.1 ≤ second.1

instance (sid : String) (call : Call) : Decidable (call.drives sid) := by
  cases call <;> unfold Call.drives <;> infer_instance

/-- The part of a history that belongs to the calls that drive session `sid`. -/
def driven {ι : Type} (calls : ι → Call) (sid : String) (history : List (Entry sig ι)) :
    List (Entry sig ι) :=
  history.filter fun entry => (calls entry.task).drives sid

/-- Every task has published the transitions that it made. -/
def Announced {ι : Type} [DecidableEq ι] (sid : String) (history : List (Entry sig ι)) : Prop :=
  ∀ task, (own task history).filterMap (recorded sid) =
    (own task history).filterMap (transition sid)

theorem Trail.before {source target : SessionState} {earlier later : List (SessionState × SessionState)}
    (trail : Trail source (earlier ++ later) target) :
    ∃ middle, Trail source earlier middle ∧ (later = [] → middle = target) := by
  induction later using List.reverseRecOn generalizing target with
  | nil => exact ⟨target, by simpa using trail, fun _ => rfl⟩
  | append_singleton later move ih =>
    generalize shape : earlier ++ (later ++ [move]) = moves at trail
    cases trail with
    | start => simp at shape
    | step front edge =>
      rw [← List.append_assoc] at shape
      obtain ⟨rfl, _⟩ := List.append_inj' shape rfl
      obtain ⟨middle, reached, _⟩ := ih front
      exact ⟨middle, reached, by simp⟩

theorem Trail.head {source target : SessionState} {move : SessionState × SessionState}
    {later : List (SessionState × SessionState)} (trail : Trail source (move :: later) target) :
    move.1 = source := by
  rw [← List.singleton_append] at trail
  obtain ⟨middle, first, _⟩ := trail.before
  generalize shape : [move] = moves at first
  cases first with
  | start => cases shape
  | step front edge =>
    obtain ⟨empty, same⟩ := List.append_inj' ((List.nil_append _).trans shape) rfl
    obtain rfl := List.singleton_inj.mp same
    cases front with
    | start => rfl
    | step => simp at empty

theorem recorded_eq (sid : String) (act : Act sig) :
    recorded sid act = (changePushed sid act).map Prod.snd := by
  obtain ⟨op, ans⟩ := act
  cases op
  case pushRing target event =>
    by_cases here : target = sid
    · simp only [recorded, changePushed, pushed, here, if_true, Option.bind_some, Option.map_map]
      cases stateChangeOf event <;> rfl
    · simp [recorded, changePushed, pushed, here]
  all_goals rfl

theorem transition_apart_recorded {sid : String} (act : Act sig) :
    transition sid act = none ∨ recorded sid act = none := by
  obtain ⟨op, ans⟩ := act
  cases op
  case cas => exact .inr rfl
  all_goals exact .inl rfl

theorem changePushed_sublist {ι : Type} {sid : String} (history : List (Entry sig ι)) :
    ((shown (changePushed sid) history).map Prod.fst).Sublist
      ((shown (pushed sid) history).map StrategyEvent.sequence) := by
  induction history with
  | nil => exact .slnil
  | cons entry rest ih =>
    cases pushes : pushed sid entry.act with
    | none => simpa [shown, changePushed, pushes] using ih
    | some event =>
      cases change : stateChangeOf event with
      | none =>
        have later := ih.cons event.sequence
        simpa [shown, changePushed, pushes, change] using later
      | some move =>
        have later := ih.cons_cons event.sequence
        simpa [shown, changePushed, pushes, change] using later

section Pools

variable {ι : Type} [DecidableEq ι] {manager : SessionManager} {plane : Plane} {calls : ι → Call}
  {history : List (Entry sig ι)} {config : Config machine ι Outcome} {sid : String}

/-- A task that published a transition drives the session. -/
theorem drives_of_recorded (run : Run (pool manager plane calls) history config)
    (derived : ∀ task target event, calls task ≠ .publish target event) {entry : Entry sig ι}
    (member : entry ∈ history) (announces : (recorded sid entry.act).isSome = true) :
    (calls entry.task).drives sid := by
  obtain ⟨move, shows⟩ := Option.isSome_iff_exists.mp announces
  have listed : move ∈ (own entry.task history).filterMap (recorded sid) :=
    List.mem_filterMap.mpr ⟨entry.act, mem_own.mpr member, shows⟩
  have due := (announced_by_task run (.inl rfl) derived entry.task).1.subset listed
  obtain ⟨act, performed, moved⟩ := List.mem_filterMap.mp due
  obtain ⟨_, permitted⟩ := (pool_execution run).meets (mem_own.mp performed)
  obtain ⟨op, ans⟩ := act
  cases op
  case cas target expected next =>
    cases ans with
    | none => cases moved
    | some prev =>
      simp only [transition] at moved
      split at moved
      · rename_i here
        exact here ▸ permitted.2
      · cases moved
  all_goals cases moved

/-- Only the calls that drive the session push StateChange events. -/
theorem changePushed_driven (run : Run (pool manager plane calls) history config)
    (derived : ∀ task target event, calls task ≠ .publish target event) :
    shown (changePushed sid) (driven calls sid history) = shown (changePushed sid) history := by
  apply shown_filter
  intro entry member pushes
  have announces : (recorded sid entry.act).isSome = true := by
    rw [recorded_eq, Option.isSome_map]
    exact pushes
  exact decide_eq_true (drives_of_recorded run derived member announces)

theorem changes_increase (run : Run (pool manager plane calls) history config)
    (derived : ∀ task target event, calls task ≠ .publish target event)
    (room : (plane.bus sid).seq + (shown (numbered sid) history).length < u64Size)
    (turns : InTurn (numbered sid) (sequenceOf (pushed sid)) (driven calls sid history)) :
    (shown (changePushed sid) history).Pairwise fun first second => first.1 < second.1 := by
  have stages := numbering_before_push sid
  obtain ⟨numbers, _⟩ := execution_numbers (pool_execution run) room
  have paced : ∀ task, Paced (numbered sid) (sequenceOf (pushed sid))
      (own task (driven calls sid history)) := by
    intro task
    unfold driven
    rw [own_filter fun task => decide ((calls task).drives sid)]
    split
    · exact stages.paced run task
    · intro first rest shape
      obtain ⟨rfl, _⟩ := List.append_eq_nil_iff.mp shape.symm
      exact List.prefix_refl _
  obtain ⟨waiting, _, total⟩ := turns.shown_append_waiting stages.apart paced
  have increasing : (shown (numbered sid) (driven calls sid history)).Pairwise (· < ·) := by
    have kept : (shown (numbered sid) (driven calls sid history)).Sublist
        (shown (numbered sid) history) := List.filter_sublist.filterMap _
    rw [numbers] at kept
    exact List.Pairwise.sublist kept List.pairwise_lt_range'
  rw [total] at increasing
  have ordered := (List.pairwise_append.mp increasing).1
  rw [← changePushed_driven run derived]
  have among : ((shown (changePushed sid) (driven calls sid history)).map Prod.fst).Sublist
      (shown (sequenceOf (pushed sid)) (driven calls sid history)) := by
    rw [shown_sequenceOf]
    exact changePushed_sublist _
  exact List.pairwise_map.mp (ordered.sublist among)

/-- In every state of a run whose StateChange events take their numbers and reach the
ring in the order of the transitions, the events form a trail from where the session
started; it ends in the state of the session once no transition is in progress. -/
theorem state_changes_chain (run : Run (pool manager plane calls) history config)
    {source : SessionState} (starts : plane.origin sid = some source)
    (derived : ∀ task target event, calls task ≠ .publish target event)
    (room : (plane.bus sid).seq + (shown (numbered sid) history).length < u64Size)
    (ordered : InTurn (transition sid) (recorded sid) history)
    (numbered : InTurn (numbered sid) (sequenceOf (pushed sid)) (driven calls sid history)) :
    ∃ last, Trail source ((stateChanges sid history).map Prod.snd) last ∧
      (Announced sid history → Plane.origin config.state sid = some last) := by
  have increasing := changes_increase run derived room numbered
  have sorted : stateChanges sid history = shown (changePushed sid) history := by
    apply List.Pairwise.insertionSort_eq
    exact increasing.imp fun below => below.le
  have moves : (stateChanges sid history).map Prod.snd = shown (recorded sid) history := by
    rw [sorted]
    simp only [shown, List.map_filterMap, ← recorded_eq]
  have paced : ∀ task, Paced (transition sid) (recorded sid) (own task history) := fun task =>
    .of_path (Call.settles (.inl rfl) manager (derived task)) (run.path task)
  obtain ⟨waiting, _, total⟩ := ordered.shown_append_waiting transition_apart_recorded paced
  obtain ⟨target, reached, trail⟩ := transitions_trail (pool_execution run) starts
  rw [transitions, total] at trail
  obtain ⟨last, ends, final⟩ := trail.before
  refine ⟨last, moves ▸ ends, ?_⟩
  intro announced
  have sizes := (shown_perm announced).length_eq
  rw [total, List.length_append] at sizes
  have settled : waiting = [] := List.length_eq_zero_iff.mp (by omega)
  rw [final settled, reached]

end Pools

/-- A reconcile that is overtaken by a stop after its swap: the stop's event takes the
first number, so the log leaves SYNCING before it enters it. -/
theorem state_changes_overtaken :
    ∃ history config,
      Run (pool mockManager (Plane.single (.inState .attached [])) stopBesideReconcile) history
        config ∧
      (∀ task, ∃ result, config.procs task = .done result) ∧
      (stateChanges "s1" history).map Prod.snd =
        [(.syncing, .gracefulShutdown), (.attached, .syncing)] ∧
      ∀ last, ¬ Trail .attached ((stateChanges "s1" history).map Prod.snd) last := by
  obtain ⟨history, config, run, finished, changes⟩ : ∃ history config,
      Run (pool mockManager (Plane.single (.inState .attached [])) stopBesideReconcile) history
        config ∧
      (∀ task, ∃ result, config.procs task = .done result) ∧
      (stateChanges "s1" history).map Prod.snd =
        [(.syncing, .gracefulShutdown), (.attached, .syncing)] :=
    Run.exists_of_replay (List.flatten [List.replicate 3 (true, .none),
      List.replicate 10 (false, .none), List.replicate 4 (true, .none)]) (by decide +kernel)
  refine ⟨history, config, run, finished, changes, ?_⟩
  intro last trail
  rw [changes] at trail
  have first := trail.head
  cases first

/-- The reconcile publishes before the stop swaps. -/
theorem state_changes_chain_in_turn :
    ∃ history config,
      Run (pool mockManager (Plane.single (.inState .attached [])) stopBesideReconcile) history
        config ∧
      (stateChanges "s1" history).map Prod.snd =
        [(.attached, .syncing), (.syncing, .gracefulShutdown)] ∧
      ∃ last, Trail .attached ((stateChanges "s1" history).map Prod.snd) last ∧
        (Announced "s1" history → Plane.origin config.state "s1" = some last) := by
  obtain ⟨history, config, run, changes, numbers, moves, pushes⟩ : ∃ history config,
      Run (pool mockManager (Plane.single (.inState .attached [])) stopBesideReconcile) history
        config ∧
      (stateChanges "s1" history).map Prod.snd =
        [(.attached, .syncing), (.syncing, .gracefulShutdown)] ∧
      (shown (numbered "s1") history).length = 2 ∧
      takesTurns (transition "s1") (recorded "s1") [] history = true ∧
      takesTurns (numbered "s1") (sequenceOf (pushed "s1")) []
        (driven stopBesideReconcile "s1" history) = true :=
    Run.exists_of_replay (List.flatten [List.replicate 7 (true, .none),
      List.replicate 10 (false, .none)]) (by decide +kernel)
  have room : ((Plane.single (.inState .attached [])).bus "s1").seq +
      (shown (numbered "s1") history).length < u64Size := by
    rw [numbers]
    decide
  have derived : ∀ task target event, stopBesideReconcile task ≠ .publish target event := by
    intro task target event
    cases task <;> simp [stopBesideReconcile]
  exact ⟨history, config, run, changes, state_changes_chain run rfl derived room
    (.of_takesTurns moves) (.of_takesTurns pushes)⟩

end LongTrader.Session
