import LongTrader.Interleave.History

/-! A task seen at a finer grain: each of its actions is spelled out as a short
program over another machine, and what the task does can be read back from it. -/

namespace Interleave

section Expand

variable {sig fine : Signature} {α : Type}

/-- Spell out every action of a task. -/
def Proc.expand (spell : (op : sig.Op) → Proc fine (sig.Ans op)) : Proc sig α → Proc fine α
  | .done result => .done result
  | .act op next => spell op >>= fun ans => (next ans).expand spell

variable {spell : (op : sig.Op) → Proc fine (sig.Ans op)}

theorem Proc.Within.expand {coarse : Set sig.Op} {allowed : Set fine.Op} {task : Proc sig α}
    (within : task.Within coarse) (each : ∀ op ∈ coarse, (spell op).Within allowed) :
    (task.expand spell).Within allowed := by
  induction task with
  | done result => trivial
  | act op next ih => exact (each op within.1).bind fun ans => ih ans (within.2 ans)

/-- A composable property of the spelled actions holds of a spelled task. -/
theorem Proc.expand_emits {holds : List (Act fine) → Prop} (composes : Composes holds)
    (each : ∀ op, (spell op).Emits holds) (task : Proc sig α) : (task.expand spell).Emits holds := by
  induction task with
  | done result => exact .done composes result
  | act op next ih => exact (each op).bind composes ih

/-- Every spelled action shows, through `read`, the one action it spells. -/
def Spells (spell : (op : sig.Op) → Proc fine (sig.Ans op)) (read : Act fine → Option (Act sig)) : Prop :=
  ∀ op acts ans, (spell op).Completes acts ans → acts.filterMap read = [⟨op, ans⟩]

variable {read : Act fine → Option (Act sig)}

theorem Proc.completes_of_expand (spells : Spells spell read) {task : Proc sig α}
    {acts : List (Act fine)} {result : α} (finishes : (task.expand spell).Completes acts result) :
    task.Completes (acts.filterMap read) result := by
  induction task generalizing acts with
  | done value =>
    obtain ⟨rfl, rfl⟩ := finishes
    exact ⟨rfl, rfl⟩
  | act op next ih =>
    obtain ⟨first, rest, ans, rfl, spelled, continues⟩ := Proc.completes_bind.mp finishes
    rw [List.filterMap_append, spells op first ans spelled]
    exact ⟨ans, rest.filterMap read, rfl, ih ans continues⟩

/-- What the actions of a task settle, their spelling settles. -/
theorem Proc.Emits.expand {γ : Type} {due seen : Act sig → Option γ} (spells : Spells spell read)
    {task : Proc sig α} (emits : task.Emits (Settles due seen)) :
    (task.expand spell).Emits
      (Settles (fun act => (read act).bind due) (fun act => (read act).bind seen)) := by
  intro acts result finishes
  have settled := emits _ result (Proc.completes_of_expand spells finishes)
  refine ⟨?_, ?_⟩
  · rw [← List.filterMap_filterMap, ← List.filterMap_filterMap]
    exact settled.complete
  · intro first rest cut
    rw [← List.filterMap_filterMap, ← List.filterMap_filterMap]
    apply settled.partway _ (rest.filterMap read)
    rw [cut, List.filterMap_append]

end Expand

section Cutting

variable {sig : Signature} {m : Machine sig} {ι : Type} [DecidableEq ι] {Result : Type}
  {start config : Config m ι Result}

theorem Run.eq_of_nil (run : Run start [] config) : config = start := by
  generalize none : ([] : List (Entry sig ι)) = history at run
  cases run with
  | start => rfl
  | step => simp at none

theorem Proc.Path.eq_of_nil {task last : Proc sig Result} (path : Proc.Path task [] last) :
    last = task := by
  cases path
  rfl

/-- The last action of a run. -/
theorem Run.last {history : List (Entry sig ι)} {entry : Entry sig ι}
    (run : Run start (history ++ [entry]) config) :
    ∃ before choice, Run start history before ∧
      m.exec entry.act.op choice before.state = some (entry.act.ans, config.state) := by
  generalize whole : history ++ [entry] = full at run
  cases run with
  | start => simp at whole
  | @step front before task op next ans state run pending choice fires =>
    obtain ⟨rfl, same⟩ := List.append_inj' whole rfl
    obtain rfl := (List.cons.inj same).1
    exact ⟨before, choice, run, fires⟩

/-- The run of `history` from `start` to `config` went through a state with `holds`. -/
def Passes (start : Config m ι Result) (history : List (Entry sig ι)) (config : Config m ι Result)
    (holds : m.State → Prop) : Prop :=
  ∃ pre post middle, history = pre ++ post ∧ Run start pre middle ∧ Run middle post config ∧
    holds middle.state

theorem Run.passes {history : List (Entry sig ι)} {holds : m.State → Prop}
    (run : Run start history config) (here : holds config.state) : Passes start history config holds :=
  ⟨history, [], config, (List.append_nil history).symm, run, .start, here⟩

theorem Passes.step {history : List (Entry sig ι)} {holds : m.State → Prop} {task : ι} {op : sig.Op}
    {next : sig.Ans op → Proc sig Result} {ans : sig.Ans op} {state : m.State}
    (passes : Passes start history config holds) (pending : config.procs task = .act op next)
    (choice : m.Choice) (fires : m.exec op choice config.state = some (ans, state)) :
    Passes start (history ++ [Entry.of task op ans])
      ⟨state, Function.update config.procs task (next ans)⟩ holds := by
  obtain ⟨pre, post, middle, rfl, first, second, held⟩ := passes
  exact ⟨pre, post ++ [Entry.of task op ans], middle, List.append_assoc .., first,
    .step second pending choice fires, held⟩

theorem Passes.mono {history : List (Entry sig ι)} {holds weaker : m.State → Prop}
    (passes : Passes start history config holds) (imp : ∀ state, holds state → weaker state) :
    Passes start history config weaker := by
  obtain ⟨pre, post, middle, cut, first, second, held⟩ := passes
  exact ⟨pre, post, middle, cut, first, second, imp _ held⟩

theorem Proc.Within.residual {allowed : Set sig.Op} {task last : Proc sig Result} {acts : List (Act sig)}
    (within : task.Within allowed) (path : Proc.Path task acts last) : last.Within allowed := by
  induction path with
  | stop => exact within
  | act rest ih => exact ih (within.2 _)

/-- A pending action is justified by what its task has done, whatever its answer. -/
theorem Run.pending_justified {history : List (Entry sig ι)} {task : ι} {op : sig.Op}
    {next : sig.Ans op → Proc sig Result} {claim : List (Act sig) → Act sig → Prop}
    (run : Run start history config) (justifies : (start.procs task).Justifies claim [])
    (pending : config.procs task = .act op next) (ans : sig.Ans op) :
    claim (own task history) ⟨op, ans⟩ := by
  have path := run.path task
  rw [pending] at path
  exact justifies.at_act (path.snoc ans)

theorem Run.append {middle : Config m ι Result} {first second : List (Entry sig ι)}
    (before : Run start first middle) (after : Run middle second config) :
    Run start (first ++ second) config := by
  induction after with
  | start => exact (List.append_nil first).symm ▸ before
  | step run pending choice fires ih =>
    rw [← List.append_assoc]
    exact .step ih pending choice fires

/-- A schedule in two parts, with one check where they meet and one at the end. -/
theorem Run.exists_passing {early : m.State → Prop} {late : Config m ι Result → Prop}
    [∀ state, Decidable (early state)] [∀ config, Decidable (late config)]
    (first second : List (ι × m.Choice))
    (checked : (replay start first).any (fun out => decide (early out.2.state) &&
      (replay out.2 second).any fun last => decide (late last.2)) = true) :
    ∃ history config, Run start history config ∧ Passes start history config early ∧ late config := by
  obtain ⟨⟨begun, middle⟩, followed, passed⟩ := (Option.any_eq_true _ _).mp checked
  obtain ⟨here, rest⟩ := Bool.and_eq_true_iff.mp passed
  obtain ⟨⟨ended, config⟩, continued, final⟩ := (Option.any_eq_true _ _).mp rest
  have before := Run.of_replay followed
  have after := Run.of_replay continued
  exact ⟨begun ++ ended, config, before.append after,
    ⟨begun, ended, middle, rfl, before, after, of_decide_eq_true here⟩, of_decide_eq_true final⟩

end Cutting

end Interleave
