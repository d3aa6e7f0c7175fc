import LongTrader.Interleave.Proc
import Mathlib.Logic.Function.Basic

/-! A pool of tasks over one shared state. Each step lets one task perform its
next action; the environment chooses what the shared state leaves open. -/

namespace Interleave

/-- How an action changes the shared state. `none` means that the action cannot
happen now with this choice of the environment. -/
structure Machine (sig : Signature) where
  State : Type
  Choice : Type
  exec : (op : sig.Op) → Choice → State → Option (sig.Ans op × State)

/-- One line of the history of a pool: who performed which action. -/
structure Entry (sig : Signature) (ι : Type) where
  task : ι
  act : Act sig

/-- The entry of `task` performing `op` and being answered `ans`. -/
abbrev Entry.of {sig : Signature} {ι : Type} (task : ι) (op : sig.Op) (ans : sig.Ans op) :
    Entry sig ι := ⟨task, ⟨op, ans⟩⟩

structure Config {sig : Signature} (m : Machine sig) (ι Result : Type) where
  state : m.State
  procs : ι → Proc sig Result

section Executions

variable {sig : Signature} {m : Machine sig} {ι : Type} {history : List (Entry sig ι)}

/-- What happened to the shared state along a history, with the tasks left out. -/
inductive Execution (m : Machine sig) (ok : m.State → Entry sig ι → Prop)
    (initial : m.State) : List (Entry sig ι) → m.State → Prop where
  | start : Execution m ok initial [] initial
  | step {history : List (Entry sig ι)} {task : ι} {op : sig.Op} {ans : sig.Ans op} {before after : m.State}
      (earlier : Execution m ok initial history before) (choice : m.Choice)
      (fires : m.exec op choice before = some (ans, after)) (meets : ok before (Entry.of task op ans)) :
      Execution m ok initial (history ++ [Entry.of task op ans]) after

variable {ok : m.State → Entry sig ι → Prop} {initial state : m.State}

/-- Any history can be cut: what came before the cut is an execution, and what
follows is one from the state reached there. -/
theorem Execution.split {pre post : List (Entry sig ι)} (execution : Execution m ok initial (pre ++ post) state) :
    ∃ middle, Execution m ok initial pre middle ∧ Execution m ok middle post state := by
  generalize whole : pre ++ post = history at execution
  induction execution generalizing post with
  | start =>
    obtain ⟨rfl, rfl⟩ := List.append_eq_nil_iff.mp whole
    exact ⟨initial, .start, .start⟩
  | @step history task op ans before after earlier choice fires meets ih =>
    rcases List.eq_nil_or_concat post with rfl | ⟨front, last, rfl⟩
    · refine ⟨after, ?_, .start⟩
      rw [List.append_nil] at whole
      subst whole
      exact .step earlier choice fires meets
    · rw [List.concat_eq_append, ← List.append_assoc] at whole
      obtain ⟨same, lastSame⟩ := List.append_inj' whole rfl
      obtain rfl := (List.cons.inj lastSame).1
      obtain ⟨middle, first, second⟩ := ih same
      refine ⟨middle, first, ?_⟩
      rw [List.concat_eq_append]
      exact .step second choice fires meets

/-- Every entry of an execution was permitted where it was made. -/
theorem Execution.meets {entry : Entry sig ι} (execution : Execution m ok initial history state)
    (member : entry ∈ history) : ∃ before, ok before entry := by
  induction execution with
  | start => cases member
  | @step history task op ans before after earlier choice fires meets ih =>
    rcases List.mem_append.mp member with old | new
    · exact ih old
    · obtain rfl := List.mem_singleton.mp new
      exact ⟨before, meets⟩

/-- The last action of an execution, with the state it was performed in. -/
theorem Execution.last {entry : Entry sig ι}
    (execution : Execution m ok initial (history ++ [entry]) state) :
    ∃ before choice, Execution m ok initial history before ∧
      m.exec entry.act.op choice before = some (entry.act.ans, state) ∧ ok before entry := by
  generalize whole : history ++ [entry] = full at execution
  cases execution with
  | start => simp at whole
  | @step front task op ans before _ earlier choice fires meets =>
    obtain ⟨rfl, same⟩ := List.append_inj' whole rfl
    obtain rfl := (List.cons.inj same).1
    exact ⟨before, choice, earlier, fires, meets⟩

/-- The action at one place of a history, with the states around it. -/
theorem Execution.at_entry {pre post : List (Entry sig ι)} {entry : Entry sig ι}
    (execution : Execution m ok initial (pre ++ entry :: post) state) :
    ∃ before after choice, Execution m ok initial pre before ∧
      m.exec entry.act.op choice before = some (entry.act.ans, after) ∧ ok before entry ∧
      Execution m ok after post state := by
  rw [List.append_cons] at execution
  obtain ⟨after, first, rest⟩ := execution.split
  obtain ⟨before, choice, earlier, fires, meets⟩ := first.last
  exact ⟨before, after, choice, earlier, fires, meets, rest⟩

end Executions

section Runs

variable {sig : Signature} {m : Machine sig} {ι : Type} [DecidableEq ι] {Result : Type}

/-- The runs of a pool from `start`, with the history each of them leaves. -/
inductive Run (start : Config m ι Result) : List (Entry sig ι) → Config m ι Result → Prop where
  | start : Run start [] start
  | step {history : List (Entry sig ι)} {config : Config m ι Result} {task : ι} {op : sig.Op}
      {next : sig.Ans op → Proc sig Result} {ans : sig.Ans op} {state : m.State}
      (run : Run start history config)
      (pending : config.procs task = .act op next) (choice : m.Choice)
      (fires : m.exec op choice config.state = some (ans, state)) :
      Run start (history ++ [Entry.of task op ans])
        ⟨state, Function.update config.procs task (next ans)⟩

variable {start config : Config m ι Result} {history : List (Entry sig ι)}

/-- The actions of one task, in the order it performed them. -/
def own (task : ι) (history : List (Entry sig ι)) : List (Act sig) :=
  history.filterMap (fun entry => if entry.task = task then some entry.act else none)

@[simp] theorem own_nil (task : ι) : own task ([] : List (Entry sig ι)) = [] := rfl

@[simp] theorem own_append (task : ι) (first second : List (Entry sig ι)) :
    own task (first ++ second) = own task first ++ own task second := by
  simp [own]

@[simp] theorem own_singleton_self (task : ι) (act : Act sig) :
    own task [(⟨task, act⟩ : Entry sig ι)] = [act] := by
  simp [own]

theorem own_singleton_of_ne {task other : ι} (different : other ≠ task) (act : Act sig) :
    own task [(⟨other, act⟩ : Entry sig ι)] = [] := by
  simp [own, different]

theorem mem_own {task : ι} {act : Act sig} :
    act ∈ own task history ↔ (⟨task, act⟩ : Entry sig ι) ∈ history := by
  simp only [own, List.mem_filterMap]
  constructor
  · rintro ⟨entry, member, found⟩
    split at found
    · rename_i same
      obtain rfl := Option.some.inj found
      subst same
      exact member
    · cases found
  · intro member
    exact ⟨_, member, by simp⟩

/-- A run projects onto a path through the program of each of its tasks. -/
theorem Run.path (run : Run start history config) (task : ι) :
    Proc.Path (start.procs task) (own task history) (config.procs task) := by
  induction run with
  | start => exact .stop
  | @step history config other op next ans state run pending choice fires ih =>
    by_cases same : other = task
    · subst same
      simp only [own_append, own_singleton_self, Function.update_self]
      rw [pending] at ih
      exact ih.snoc ans
    · simpa [own_singleton_of_ne same, Function.update_of_ne (Ne.symm same)] using ih

/-- Any run can be cut: it goes on from where its beginning left the pool. -/
theorem Run.split {pre post : List (Entry sig ι)} (run : Run start (pre ++ post) config) :
    ∃ middle, Run start pre middle ∧ Run middle post config := by
  generalize whole : pre ++ post = history at run
  induction run generalizing post with
  | start =>
    obtain ⟨rfl, rfl⟩ := List.append_eq_nil_iff.mp whole
    exact ⟨start, .start, .start⟩
  | @step history config task op next ans state run pending choice fires ih =>
    rcases List.eq_nil_or_concat post with rfl | ⟨front, last, rfl⟩
    · rw [List.append_nil] at whole
      subst whole
      exact ⟨_, .step run pending choice fires, .start⟩
    · rw [List.concat_eq_append, ← List.append_assoc] at whole
      obtain ⟨same, lastSame⟩ := List.append_inj' whole rfl
      obtain rfl := (List.cons.inj lastSame).1
      obtain ⟨middle, first, second⟩ := ih same
      refine ⟨middle, first, ?_⟩
      rw [List.concat_eq_append]
      exact .step second pending choice fires

theorem Run.completes {task : ι} {result : Result} (run : Run start history config)
    (finished : config.procs task = .done result) :
    (start.procs task).Completes (own task history) result := by
  have path := run.path task
  rw [finished] at path
  exact Proc.path_done_iff.mp path

/-- Forgetting the tasks, a run is an execution whose every action comes from
the program of the task that performed it. -/
theorem Run.execution (run : Run start history config) {allowed : ι → Set sig.Op}
    (within : ∀ task, (start.procs task).Within (allowed task)) :
    Execution m (fun _ entry => entry.act.op ∈ allowed entry.task) start.state history
      config.state := by
  induction run with
  | start => exact .start
  | @step history config task op next ans state run pending choice fires ih =>
    refine .step ih choice fires ?_
    have path := run.path task
    rw [pending] at path
    have extended := path.snoc ans
    exact (within task).mem extended ⟨op, ans⟩ (by simp)

end Runs

section Replay

variable {sig : Signature} {m : Machine sig} {ι : Type} [DecidableEq ι] {Result : Type}

/-- Let one task perform its next action. -/
def fire (config : Config m ι Result) (task : ι) (choice : m.Choice) :
    Option (Entry sig ι × Config m ι Result) :=
  match config.procs task with
  | .done _ => none
  | .act op next =>
    match m.exec op choice config.state with
    | none => none
    | some (ans, state) =>
      some (Entry.of task op ans, ⟨state, Function.update config.procs task (next ans)⟩)

/-- Follow a schedule: which task goes next and what the environment chooses. -/
def replay (config : Config m ι Result) :
    List (ι × m.Choice) → Option (List (Entry sig ι) × Config m ι Result)
  | [] => some ([], config)
  | (task, choice) :: rest =>
    match fire config task choice with
    | none => none
    | some (entry, next) => (replay next rest).map (fun tail => (entry :: tail.1, tail.2))

private theorem Run.prepend {start middle final : Config m ι Result} {task : ι}
    {choice : m.Choice} {entry : Entry sig ι} {history : List (Entry sig ι)}
    (fired : fire start task choice = some (entry, middle)) (run : Run middle history final) :
    Run start (entry :: history) final := by
  induction run with
  | start =>
    unfold fire at fired
    split at fired
    · cases fired
    · rename_i op next pending
      split at fired
      · cases fired
      · rename_i ans state fires
        obtain ⟨rfl, rfl⟩ := Prod.mk.inj (Option.some.inj fired)
        have first : Run start ([] ++ [Entry.of task op ans])
            ⟨state, Function.update start.procs task (next ans)⟩ := .step .start pending choice fires
        exact first
  | step run pending choice fires ih => exact .step ih pending choice fires

/-- A schedule that can be followed is a run. -/
theorem Run.of_replay {start final : Config m ι Result} {history : List (Entry sig ι)}
    {schedule : List (ι × m.Choice)} (followed : replay start schedule = some (history, final)) :
    Run start history final := by
  induction schedule generalizing start history with
  | nil =>
    obtain ⟨rfl, rfl⟩ := Prod.mk.inj (Option.some.inj followed)
    exact .start
  | cons head rest ih =>
    obtain ⟨task, choice⟩ := head
    simp only [replay] at followed
    split at followed
    · cases followed
    · rename_i entry next fired
      obtain ⟨tail, rested, same⟩ := Option.map_eq_some_iff.mp followed
      obtain ⟨rfl, rfl⟩ := Prod.mk.inj same
      exact Run.prepend fired (ih rested)

/-- A schedule that can be followed and whose outcome passes a check. -/
theorem Run.exists_of_replay {start : Config m ι Result}
    {holds : List (Entry sig ι) → Config m ι Result → Prop}
    [∀ history config, Decidable (holds history config)] (schedule : List (ι × m.Choice))
    (checked : (replay start schedule).any (fun out => decide (holds out.1 out.2)) = true) :
    ∃ history config, Run start history config ∧ holds history config := by
  obtain ⟨⟨history, config⟩, followed, passes⟩ := (Option.any_eq_true _ _).mp checked
  exact ⟨history, config, .of_replay followed, of_decide_eq_true passes⟩

end Replay

end Interleave
