import LongTrader.Session.Transitions

/-! What `stop_session` answers and in which state it leaves the session, whatever
runs beside it. -/

namespace LongTrader.Session

open Interleave

/-- The answer of a stop that reached its last state read. -/
def stopAnswer (sid : String) (failures : List String) (state : Option SessionState) :
    Except ManagerError (Option SessionState) :=
  if failures.isEmpty then .ok state else .error (.cancelsFailed sid state failures)

/-- The ways through the second half of `stop_session`. -/
inductive FinishStop (sid : String) (failures : List String) :
    List (Act sig) → Except ManagerError (Option SessionState) → Prop where
  | corrupt : FinishStop sid failures [⟨Op.load sid, none⟩]
      (.error (.invalidArgument ("session " ++ sid ++ " has an invalid state")))
  | closed (prev : SessionState) (terminal : prev.isTerminal = true) :
      FinishStop sid failures [⟨Op.load sid, some prev⟩] (.ok (some prev))
  | lost (prev : SessionState) (live : prev.isTerminal = false) (state : Option SessionState) :
      FinishStop sid failures
        [⟨Op.load sid, some prev⟩, ⟨Op.cas sid prev .gracefulShutdown, none⟩, ⟨Op.load sid, state⟩]
        (stopAnswer sid failures state)
  | won (prev swapped : SessionState) (live : prev.isTerminal = false) (seq : Nat)
      (state : Option SessionState) :
      FinishStop sid failures
        ([⟨Op.load sid, some prev⟩, ⟨Op.cas sid prev .gracefulShutdown, some swapped⟩,
          ⟨Op.markTerminal sid, ()⟩] ++
          announced sid swapped .gracefulShutdown "stop requested" seq ++ [⟨Op.load sid, state⟩])
        (stopAnswer sid failures state)

private theorem reportStop_completes {sid : String} {failures : List String}
    {acts : List (Act sig)} {result : Except ManagerError (Option SessionState)}
    (finishes : (reportStop sid failures).Completes acts result) :
    ∃ state, acts = [⟨Op.load sid, state⟩] ∧ result = stopAnswer sid failures state := by
  obtain ⟨state, rest, rfl, reports⟩ := Proc.completes_perform_bind.mp finishes
  unfold stopAnswer
  split at reports
  · rename_i clean
    obtain ⟨rfl, rfl⟩ := reports
    exact ⟨state, rfl, by simp [clean]⟩
  · rename_i dirty
    obtain ⟨rfl, rfl⟩ := reports
    exact ⟨state, rfl, by simp [dirty]⟩

theorem finishStop_completes {sid : String} {failures : List String} {acts : List (Act sig)}
    {result : Except ManagerError (Option SessionState)}
    (finishes : (finishStop sid failures).Completes acts result) :
    FinishStop sid failures acts result := by
  obtain ⟨state, rest, rfl, decides⟩ := Proc.completes_perform_bind.mp finishes
  split at decides
  · obtain ⟨rfl, rfl⟩ := decides
    exact .corrupt
  · rename_i prev
    split at decides
    · rename_i terminal
      obtain ⟨rfl, rfl⟩ := decides
      exact .closed prev terminal
    · rename_i live
      have alive : prev.isTerminal = false := by simpa using live
      obtain ⟨swapped, rest, rfl, ends⟩ := Proc.completes_perform_bind.mp decides
      split at ends
      · obtain ⟨state, rfl, rfl⟩ := reportStop_completes ends
        exact .lost prev alive state
      · rename_i replaced
        obtain ⟨⟨⟩, rest, rfl, publishes⟩ := Proc.completes_perform_bind.mp ends
        obtain ⟨news, tail, ⟨⟩, rfl, announces, reports⟩ := Proc.completes_bind.mp publishes
        obtain ⟨seq, rfl⟩ := publishStateChange_completes announces
        obtain ⟨state, rfl, rfl⟩ := reportStop_completes reports
        exact .won prev replaced alive seq state

/-- The cancels of a stop and the failures they leave. -/
inductive StopCancels (manager : SessionManager) (sid : String) :
    Bool → List (Act sig) → List String → Prop where
  | skipped : StopCancels manager sid false [] []
  | issued (outcomes : List (String × CancelOutcome)) :
      StopCancels manager sid true
        (⟨Op.trackedOrders sid, outcomes.map Prod.fst⟩ ::
          outcomes.map fun row => ⟨Op.cancelOrder manager.defaultExchange row.1, row.2⟩)
        (outcomes.filterMap fun row => row.2.failure row.1)

/-- The ways through `stop_session`. -/
inductive StopPath (manager : SessionManager) (sid : String) (cancelOpenOrders : Bool) :
    List (Act sig) → Except ManagerError (Option SessionState) → Prop where
  | missing : StopPath manager sid cancelOpenOrders [⟨Op.get sid, false⟩] (.error (.notFound sid))
  | already (state : SessionState) (terminal : state.isTerminal = true) :
      StopPath manager sid cancelOpenOrders [⟨Op.get sid, true⟩, ⟨Op.load sid, some state⟩]
        (.ok (some state))
  | through (state : Option SessionState) (live : state.any SessionState.isTerminal = false)
      (cancels : StopCancels manager sid cancelOpenOrders cancelled failures)
      (finish : FinishStop sid failures tail result) :
      StopPath manager sid cancelOpenOrders
        ([⟨Op.get sid, true⟩, ⟨Op.load sid, state⟩] ++ cancelled ++ tail) result

theorem stopSession_completes {manager : SessionManager} {sid : String} {cancelOpenOrders : Bool}
    {acts : List (Act sig)} {result : Except ManagerError (Option SessionState)}
    (finishes : (stopSession manager sid cancelOpenOrders).Completes acts result) :
    StopPath manager sid cancelOpenOrders acts result := by
  obtain ⟨registered, rest, rfl, continues⟩ := Proc.completes_perform_bind.mp finishes
  split at continues
  · rename_i present
    rw [present]
    obtain ⟨state, rest, rfl, decides⟩ := Proc.completes_perform_bind.mp continues
    split at decides
    · rename_i terminal
      obtain ⟨rfl, rfl⟩ := decides
      obtain ⟨value, rfl, holds⟩ := (Option.any_eq_true _ _).mp terminal
      exact .already value holds
    · rename_i live
      have alive : Option.any SessionState.isTerminal state = false := by simpa using live
      cases cancelOpenOrders with
      | false => exact .through state alive .skipped (finishStop_completes decides)
      | true =>
        obtain ⟨cancelled, tail, failures, rfl, cancels, ends⟩ := Proc.completes_bind.mp decides
        obtain ⟨outcomes, rfl, rfl⟩ := cancelSessionOrders_completes cancels
        exact .through state alive (.issued outcomes) (finishStop_completes ends)
  · rename_i absent
    obtain ⟨rfl, rfl⟩ := continues
    have missing : registered = false := by simpa using absent
    rw [missing]
    exact .missing

section Pools

variable {ι : Type} [DecidableEq ι] {manager : SessionManager} {plane : Plane} {calls : ι → Call}
  {history : List (Entry sig ι)} {config : Config machine ι Outcome} {caller : ι} {sid : String}
  {cancelOpenOrders : Bool} {answer : Except ManagerError (Option SessionState)}

theorem stop_path_of_done {result : Outcome} (run : Run (pool manager plane calls) history config)
    (stops : calls caller = .stopSession sid cancelOpenOrders)
    (finished : config.procs caller = .done result) :
    ∃ answer, .stopped answer = result ∧
      StopPath manager sid cancelOpenOrders (own caller history) answer := by
  have completes := run.completes finished
  have program : (pool manager plane calls).procs caller =
      .stopped <$> stopSession manager sid cancelOpenOrders := by
    simp [pool, stops, Call.task]
  rw [program] at completes
  obtain ⟨answer, finishes, same⟩ := Proc.completes_map.mp completes
  exact ⟨answer, same, stopSession_completes finishes⟩

theorem stopped_path (run : Run (pool manager plane calls) history config)
    (stops : calls caller = .stopSession sid cancelOpenOrders)
    (finished : config.procs caller = .done (.stopped answer)) :
    StopPath manager sid cancelOpenOrders (own caller history) answer := by
  obtain ⟨given, same, path⟩ := stop_path_of_done run stops finished
  obtain rfl := Outcome.stopped.inj same
  exact path

/-- Another transition to a live state took effect between a stop's read of the
state and its swap, so the swap was lost although nothing was closed. -/
def Overtaken (caller : ι) (sid : String) (history : List (Entry sig ι)) : Prop :=
  ∃ task prev next, SessionState.isTerminal next = false ∧
    [Entry.of caller (Op.load sid) (some prev), Entry.of task (Op.cas sid prev next) (some prev),
      Entry.of caller (Op.cas sid prev .gracefulShutdown) none].Sublist history

/-- A swap that found another state than it expected. -/
def lostSwap : Act sig → Bool
  | ⟨.cas _ _ _, none⟩ => true
  | _ => false

omit [DecidableEq ι] in
theorem not_overtaken_of_no_lostSwap
    (none_lost : history.all (fun entry => !lostSwap entry.act) = true) :
    ¬ Overtaken caller sid history := by
  intro overtaken
  obtain ⟨task, prev, next, _, pattern⟩ := overtaken
  have member : Entry.of caller (Op.cas sid prev .gracefulShutdown) none ∈ history :=
    pattern.subset (by simp)
  have kept := List.all_eq_true.mp none_lost _ member
  simp [lostSwap] at kept

/-- A stop that was not overtaken by a reconcile transition leaves the session in a
terminal state, whether it answers with success or with failed cancels. -/
theorem stopSession_leaves_terminal (run : Run (pool manager plane calls) history config)
    (stops : calls caller = .stopSession sid cancelOpenOrders)
    (finished : config.procs caller = .done (.stopped answer))
    (returned : (∃ state, answer = .ok state) ∨
      ∃ state failures, answer = .error (.cancelsFailed sid state failures))
    (undisturbed : ¬ Overtaken caller sid history) :
    ∃ state, Plane.sessionState config.state sid = some state ∧ state.isTerminal = true := by
  have execution := pool_execution run
  have path := stopped_path run stops finished
  generalize shape : own caller history = acts at path
  cases path with
  | missing => simp at returned
  | already state terminal =>
    have located : own caller history = [⟨Op.get sid, true⟩] ++ ⟨Op.load sid, some state⟩ :: [] :=
      shape
    obtain ⟨pre, post, rfl, _, _⟩ := own_locate located
    obtain ⟨middle, _, found, later⟩ := load_at execution
    exact ⟨state, terminal_stays later found terminal, terminal⟩
  | through state live cancels finish =>
    cases finish with
    | corrupt => simp at returned
    | closed prev terminal =>
      obtain ⟨pre, post, rfl, _, _⟩ := own_locate shape
      obtain ⟨middle, _, found, later⟩ := load_at execution
      exact ⟨prev, terminal_stays later found terminal, terminal⟩
    | won prev swapped live seq state =>
      obtain ⟨pre, post, rfl, _, tail⟩ := own_locate shape
      obtain ⟨between, rest, rfl, _, _⟩ := own_first tail
      rw [List.append_cons, ← List.append_assoc] at execution
      obtain ⟨_, after, _, _, reached, later⟩ := swap_at execution
      exact ⟨.gracefulShutdown, terminal_stays later reached rfl, rfl⟩
    | lost prev live state =>
      obtain ⟨pre, post, rfl, _, tail⟩ := own_locate shape
      obtain ⟨between, rest, rfl, _, _⟩ := own_first tail
      obtain ⟨middle, _, found, later⟩ := load_at execution
      obtain ⟨atSwap, waiting, differs, ending⟩ := lost_swap_at later
      obtain ⟨first, task, target, second, moved, rfl, edge, _, reached, onward⟩ :=
        first_move waiting found differs
      by_cases terminal : target.isTerminal = true
      · have kept := terminal_stays onward reached terminal
        exact ⟨target, terminal_stays ending kept terminal, terminal⟩
      · refine absurd ⟨task, prev, target, by simpa using terminal, ?_⟩ undisturbed
        rw [List.append_assoc, List.cons_append]
        apply sublist_from
        apply sublist_from
        apply sublist_from
        exact List.nil_sublist _

end Pools

/-- A stop beside the start of a reconcile. -/
def stopBesideReconcile : Bool → Call
  | false => .stopSession "s1" false
  | true => .beginReconcile "s1"

/-- The stop reads ATTACHED, loses its swap to `begin_reconcile` and returns `Ok`
over a session that is SYNCING. -/
theorem stopSession_overtaken :
    ∃ history config,
      Run (pool mockManager (Plane.single (.inState .attached [])) stopBesideReconcile) history
        config ∧
      config.procs false = .done (.stopped (.ok (some .syncing))) ∧
      Plane.sessionState config.state "s1" = some .syncing :=
  ⟨_, _, @Run.of_replay sig machine Bool _ Outcome _ _ _
    [(false, .none), (false, .none), (false, .none), (true, .none), (true, .none), (true, .none),
      (false, .none), (false, .none)] rfl, rfl, rfl⟩

theorem stopSession_leaves_terminal_after_reconcile :
    ∃ history config,
      Run (pool mockManager (Plane.single (.inState .attached [])) stopBesideReconcile) history
        config ∧
      ∃ state, Plane.sessionState config.state "s1" = some state ∧ state.isTerminal = true := by
  have run := @Run.of_replay sig machine Bool _ Outcome
    (pool mockManager (Plane.single (.inState .attached [])) stopBesideReconcile) _ _
    (List.flatten [List.replicate 3 (true, .none), List.replicate 10 (false, .none)]) rfl
  have stops : stopBesideReconcile false = .stopSession "s1" false := rfl
  exact ⟨_, _, run, stopSession_leaves_terminal run stops rfl (.inl ⟨_, rfl⟩)
    (not_overtaken_of_no_lostSwap rfl)⟩

/-- The failure that a cancel left behind, if any. -/
def cancelFailure : Act sig → Option String
  | ⟨.cancelOrder _ orderId, outcome⟩ => outcome.failure orderId
  | _ => none

section Failures

variable {ι : Type} [DecidableEq ι] {manager : SessionManager} {plane : Plane} {calls : ι → Call}
  {history : List (Entry sig ι)} {config : Config machine ι Outcome} {caller : ι} {sid : String}
  {answer : Except ManagerError (Option SessionState)} {failures : List String}
  {cancelled tail : List (Act sig)}

/-- Some transition to a terminal state took effect before the stop read the state
for the second time. -/
def ClosedBeforeReread (caller : ι) (sid : String) (history : List (Entry sig ι)) : Prop :=
  ∃ task source target, SessionState.isTerminal target = true ∧
    Entry.of task (Op.cas sid source target) (some source) ∈
      beforeNth (Entry.isBy caller (Op.load sid)) 1 history

private theorem cancels_failures (cancels : StopCancels manager sid true cancelled failures) :
    cancelled.filterMap cancelFailure = failures := by
  cases cancels with
  | issued outcomes =>
    rw [List.filterMap_cons_none rfl, List.filterMap_map]
    rfl

private theorem cancels_no_load (cancels : StopCancels manager sid true cancelled failures) :
    cancelled.countP (fun act => act.op = Op.load sid) = 0 := by
  cases cancels with
  | issued outcomes => simp [List.countP_eq_zero]

private theorem finish_silent (finish : FinishStop sid failures tail answer) :
    tail.filterMap cancelFailure = [] := by
  cases finish with
  | corrupt => rfl
  | closed prev terminal => rfl
  | lost prev live last => rfl
  | won prev swapped live seq last => rfl

/-- The second half of a stop begins with a read of the state, and that read
decides whether failures are reported. -/
private theorem finish_reread (finish : FinishStop sid failures tail answer)
    (some_failed : failures ≠ []) :
    ∃ state rest, tail = ⟨Op.load sid, state⟩ :: rest ∧
      ((∃ last, answer = .error (.cancelsFailed sid last failures)) ↔
        ∃ prev, state = some prev ∧ prev.isTerminal = false) := by
  cases finish with
  | corrupt => exact ⟨none, [], rfl, by simp⟩
  | closed prev terminal => exact ⟨some prev, [], rfl, by simp [terminal]⟩
  | lost prev live last => exact ⟨some prev, _, rfl, by simp [live, stopAnswer, some_failed]⟩
  | won prev swapped live seq last =>
    exact ⟨some prev, _, rfl, by simp [live, stopAnswer, some_failed]⟩

/-- A read of the state finds a live session exactly when no transition closed it
before, provided an earlier read found it live. -/
private theorem reread_live_iff {pre post : List (Entry sig ι)} {first reread : Option SessionState}
    {after : machine.State} {front back : List (Act sig)}
    (execution : Execution machine (Permitted manager calls) plane
      (pre ++ Entry.of caller (Op.load sid) reread :: post) after)
    (valid : plane.Decodes sid) (open_first : first.any SessionState.isTerminal = false)
    (earlier : own caller pre = front ++ ⟨Op.load sid, first⟩ :: back) :
    (∃ prev, reread = some prev ∧ prev.isTerminal = false) ↔
      ¬ ∃ task source target, SessionState.isTerminal target = true ∧
        Entry.of task (Op.cas sid source target) (some source) ∈ pre := by
  obtain ⟨middle, toRead, found, _⟩ := load_at execution
  constructor
  · intro live
    obtain ⟨prev, rfl, alive⟩ := live
    intro closed
    obtain ⟨task, source, target, terminal, member⟩ := closed
    obtain ⟨front, back, rfl⟩ := List.append_of_mem member
    obtain ⟨_, reached, _, _, at_target, onward⟩ := swap_at toRead
    have kept := terminal_stays onward at_target terminal
    obtain rfl := Option.some.inj (found.symm.trans kept)
    rw [alive] at terminal
    cases terminal
  · intro unclosed
    obtain ⟨before, between, rfl, _, _⟩ := own_locate earlier
    obtain ⟨value, rfl⟩ := load_decodes toRead valid
    obtain ⟨prev, rfl⟩ := load_decodes execution valid
    refine ⟨prev, rfl, ?_⟩
    by_contra terminal
    rw [Bool.not_eq_false] at terminal
    obtain ⟨start, _, atFirst, onward⟩ := load_at toRead
    obtain ⟨task, source, member⟩ := terminal_entered onward atFirst open_first found terminal
    exact unclosed ⟨task, source, prev, terminal, by simp [member]⟩

/-- A stop whose cancels failed names every failed order, exactly when the session
was not closed by another transition before the stop read its state again. -/
theorem stopSession_reports_failures_iff (run : Run (pool manager plane calls) history config)
    (valid : plane.Decodes sid) (stops : calls caller = .stopSession sid true)
    (finished : config.procs caller = .done (.stopped answer))
    (some_failed : (own caller history).filterMap cancelFailure ≠ []) :
    (∃ last, answer =
      .error (.cancelsFailed sid last ((own caller history).filterMap cancelFailure))) ↔
      ¬ ClosedBeforeReread caller sid history := by
  have execution := pool_execution run
  have path := stopped_path run stops finished
  generalize shape : own caller history = acts at path some_failed
  cases path with
  | missing => exact absurd rfl some_failed
  | already state terminal => exact absurd rfl some_failed
  | @through cancelled failures tail _ first live cancels finish =>
    rw [List.filterMap_append, List.filterMap_append, finish_silent finish,
      cancels_failures cancels, List.append_nil] at some_failed ⊢
    change failures ≠ [] at some_failed
    change (∃ last, answer = .error (.cancelsFailed sid last failures)) ↔ _
    obtain ⟨state, rest, rfl, decides⟩ := finish_reread finish some_failed
    obtain ⟨pre, post, rfl, earlier, _⟩ := own_locate shape
    have counted : pre.countP (Entry.isBy caller (Op.load sid)) = 1 := by
      rw [countP_isBy, earlier, List.countP_append, cancels_no_load cancels]
      simp
    have cut : beforeNth (Entry.isBy caller (Op.load sid)) 1
        (pre ++ (⟨caller, ⟨Op.load sid, state⟩⟩ : Entry sig ι) :: post) = pre := by
      rw [← counted]
      exact beforeNth_append (by simp [Entry.isBy])
    rw [decides, ClosedBeforeReread, cut]
    have located : own caller pre = [⟨Op.get sid, true⟩] ++ ⟨Op.load sid, first⟩ :: cancelled :=
      earlier
    exact reread_live_iff execution valid live located

end Failures

/-- A stop that cancels, beside a kill-switch trip. -/
def stopBesideTrip : Bool → Call
  | false => .stopSession "s1" true
  | true => .tripKillSwitch "s1"

/-- The venue refuses the cancel of `o1`, the trip closes the session meanwhile, and
the stop answers `Ok` without naming `o1`. -/
theorem stopSession_hides_failure :
    ∃ history config,
      Run (pool mockManager (Plane.single (.inState .active ["o1"])) stopBesideTrip) history
        config ∧
      (own false history).filterMap cancelFailure = ["o1: not found: order"] ∧
      config.procs false = .done (.stopped (.ok (some .killSwitchTripped))) :=
  ⟨_, _, @Run.of_replay sig machine Bool _ Outcome _ _ _
    [(false, .none), (false, .none), (false, .iteration ["o1"]),
      (false, .cancel (.refused (.notFound "order")) false), (true, .none), (true, .none),
      (false, .none)] rfl, rfl, rfl⟩

theorem stopSession_reports_failures_iff_alone :
    ∃ history config,
      Run (pool mockManager (Plane.single (.inState .active ["o1"])) stopBesideTrip) history
        config ∧
      ((∃ last, config.procs false = .done (.stopped (.error (.cancelsFailed "s1" last
          ["o1: not found: order"])))) ∧
        ¬ ClosedBeforeReread false "s1" history) := by
  have run := @Run.of_replay sig machine Bool _ Outcome
    (pool mockManager (Plane.single (.inState .active ["o1"])) stopBesideTrip) _ _
    (List.flatten [[(false, .none), (false, .none), (false, .iteration ["o1"]),
      (false, .cancel (.refused (.notFound "order")) false)], List.replicate 8 (false, .none)]) rfl
  have stops : stopBesideTrip false = .stopSession "s1" true := rfl
  have valid : Plane.Decodes (Plane.single (.inState .active ["o1"])) "s1" := by
    intro handle found
    obtain rfl := Option.some.inj found
    exact ⟨.active, rfl⟩
  have reports := stopSession_reports_failures_iff run valid stops rfl (by decide)
  exact ⟨_, _, run, ⟨_, rfl⟩, reports.mp ⟨_, rfl⟩⟩

end LongTrader.Session
