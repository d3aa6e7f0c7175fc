import LongTrader.Interleave.Pool

/-! A task that runs alone: from its first action to its result no other task
performs an action. -/

namespace Interleave

variable {sig : Signature} {α β : Type}

/-- `task`, run alone from `before`, returns `result` and leaves `after`. -/
inductive Alone (m : Machine sig) : Proc sig α → m.State → α → m.State → Prop where
  | done {result : α} {state : m.State} : Alone m (.done result) state result state
  | act {op : sig.Op} {next : sig.Ans op → Proc sig α} {ans : sig.Ans op}
      {before middle after : m.State} {result : α} (choice : m.Choice)
      (fires : m.exec op choice before = some (ans, middle))
      (rest : Alone m (next ans) middle result after) : Alone m (.act op next) before result after

variable {m : Machine sig} {before after : m.State}

@[simp] theorem alone_done {value result : α} :
    Alone m (.done value) before result after ↔ value = result ∧ before = after := by
  constructor
  · intro alone
    cases alone
    exact ⟨rfl, rfl⟩
  · rintro ⟨rfl, rfl⟩
    exact .done

theorem alone_act {op : sig.Op} {next : sig.Ans op → Proc sig α} {result : α} :
    Alone m (.act op next) before result after ↔
      ∃ choice ans middle, m.exec op choice before = some (ans, middle) ∧
        Alone m (next ans) middle result after := by
  constructor
  · intro alone
    cases alone with
    | act choice fires rest => exact ⟨choice, _, _, fires, rest⟩
  · rintro ⟨choice, ans, middle, fires, rest⟩
    exact .act choice fires rest

/-- The first action of a task that performs one and continues. -/
theorem alone_perform {op : sig.Op} {f : sig.Ans op → Proc sig β} {result : β} :
    Alone m (Proc.perform op >>= f) before result after ↔
      ∃ choice ans middle, m.exec op choice before = some (ans, middle) ∧
        Alone m (f ans) middle result after :=
  alone_act

/-- A sequential composition runs its two halves in turn. -/
theorem alone_bind {task : Proc sig α} {f : α → Proc sig β} {result : β} :
    Alone m (task >>= f) before result after ↔
      ∃ value middle, Alone m task before value middle ∧ Alone m (f value) middle result after := by
  induction task generalizing before with
  | done value => simp
  | act op next ih =>
    simp only [Proc.act_bind, alone_act]
    constructor
    · rintro ⟨choice, ans, middle, fires, rest⟩
      obtain ⟨value, between, head, tail⟩ := (ih ans).mp rest
      exact ⟨value, between, ⟨choice, ans, middle, fires, head⟩, tail⟩
    · rintro ⟨value, between, ⟨choice, ans, middle, fires, head⟩, tail⟩
      exact ⟨choice, ans, middle, fires, (ih ans).mpr ⟨value, between, head, tail⟩⟩

theorem alone_map {task : Proc sig α} {f : α → β} {result : β} :
    Alone m (f <$> task) before result after ↔
      ∃ value, Alone m task before value after ∧ f value = result := by
  constructor
  · intro alone
    obtain ⟨value, middle, head, tail⟩ := alone_bind.mp alone
    obtain ⟨same, rfl⟩ := alone_done.mp tail
    exact ⟨value, head, same⟩
  · rintro ⟨value, head, same⟩
    exact alone_bind.mpr ⟨value, after, head, alone_done.mpr ⟨same, rfl⟩⟩

/-- A task that runs alone is a pool with this one task in it, run to its end. -/
theorem Alone.run {task : Proc sig α} {result : α} (alone : Alone m task before result after) :
    ∃ history, Run (⟨before, fun _ => task⟩ : Config m Unit α) history ⟨after, fun _ => .done result⟩ := by
  have extend : ∀ {start : Config m Unit α} {history : List (Entry sig Unit)},
      Run start history ⟨before, fun _ => task⟩ →
      ∃ longer, Run start longer ⟨after, fun _ => .done result⟩ := by
    induction alone with
    | done => exact fun run => ⟨_, run⟩
    | @act op next ans before middle after result choice fires rest ih =>
      intro start history run
      have stepped : Run start (history ++ [Entry.of () op ans])
          ⟨middle, Function.update (fun _ => Proc.act op next) () (next ans)⟩ :=
        .step run rfl choice fires
      have only : Function.update (fun _ => Proc.act op next) () (next ans) = fun _ => next ans :=
        funext fun _ => rfl
      exact ih (only ▸ stepped)
  exact extend .start

namespace Proc

/-- Whenever `task` runs alone, `rel` holds between the states around it. -/
def Ensures (m : Machine sig) (rel : m.State → m.State → Prop) (task : Proc sig α) : Prop :=
  ∀ before result after, Alone m task before result after → rel before after

section Ensures

variable {rel : m.State → m.State → Prop}

theorem Ensures.done (reflexive : ∀ state, rel state state) (value : α) :
    (Proc.done value).Ensures m rel := by
  intro before result after alone
  obtain ⟨_, rfl⟩ := alone_done.mp alone
  exact reflexive before

variable (transitive : ∀ first second third, rel first second → rel second third → rel first third)

include transitive

theorem Ensures.bind {task : Proc sig α} {f : α → Proc sig β} (head : task.Ensures m rel)
    (tail : ∀ value, (f value).Ensures m rel) : (task >>= f).Ensures m rel := by
  intro before result after alone
  obtain ⟨value, middle, first, second⟩ := alone_bind.mp alone
  exact transitive _ _ _ (head _ _ _ first) (tail value _ _ _ second)

theorem Ensures.act {op : sig.Op} {f : sig.Ans op → Proc sig β}
    (here : ∀ choice before ans after, m.exec op choice before = some (ans, after) → rel before after)
    (tail : ∀ ans, (f ans).Ensures m rel) : (perform op >>= f).Ensures m rel := by
  intro before result after alone
  obtain ⟨choice, ans, middle, fires, rest⟩ := alone_perform.mp alone
  exact transitive _ _ _ (here choice _ _ _ fires) (tail ans _ _ _ rest)

/-- A relation that every allowed action respects holds around the whole task. -/
theorem Within.ensures {allowed : Set sig.Op} {task : Proc sig α} (within : task.Within allowed)
    (reflexive : ∀ state, rel state state)
    (here : ∀ op ∈ allowed, ∀ choice before ans after,
      m.exec op choice before = some (ans, after) → rel before after) :
    task.Ensures m rel := by
  induction task with
  | done value => exact .done reflexive value
  | act op next ih =>
    exact .act transitive (here op within.1) fun ans => ih ans (within.2 ans)

end Ensures

/-- From every state with `holds`, `task` can run to its end and keep `holds`. -/
def Finishes (m : Machine sig) (holds : m.State → Prop) (task : Proc sig α) : Prop :=
  ∀ before, holds before → ∃ result after, Alone m task before result after ∧ holds after

section Finishes

variable {holds : m.State → Prop}

theorem Finishes.done (value : α) : (Proc.done value).Finishes m holds :=
  fun before held => ⟨value, before, .done, held⟩

theorem Finishes.bind {task : Proc sig α} {f : α → Proc sig β} (head : task.Finishes m holds)
    (tail : ∀ value, (f value).Finishes m holds) : (task >>= f).Finishes m holds := by
  intro before held
  obtain ⟨value, middle, first, kept⟩ := head before held
  obtain ⟨result, after, second, ends⟩ := tail value middle kept
  exact ⟨result, after, alone_bind.mpr ⟨value, middle, first, second⟩, ends⟩

theorem Finishes.act {op : sig.Op} {f : sig.Ans op → Proc sig β}
    (here : ∀ before, holds before → ∃ choice ans after,
      m.exec op choice before = some (ans, after) ∧ holds after)
    (tail : ∀ ans, (f ans).Finishes m holds) : (perform op >>= f).Finishes m holds := by
  intro before held
  obtain ⟨choice, ans, middle, fires, kept⟩ := here before held
  obtain ⟨result, after, rest, ends⟩ := tail ans middle kept
  exact ⟨result, after, .act choice fires rest, ends⟩

end Finishes

/-- Run a task alone, given what the environment chooses for each action. -/
def solo (m : Machine sig) : Proc sig α → List m.Choice → m.State → Option (α × m.State)
  | .done result, _, state => some (result, state)
  | .act _ _, [], _ => none
  | .act op next, choice :: choices, state => match m.exec op choice state with
    | none => none
    | some (ans, middle) => (next ans).solo m choices middle

end Proc

theorem Alone.of_solo {task : Proc sig α} {choices : List m.Choice} {result : α}
    (ran : task.solo m choices before = some (result, after)) : Alone m task before result after := by
  induction task generalizing choices before with
  | done value =>
    obtain ⟨rfl, rfl⟩ := Prod.mk.inj (Option.some.inj ran)
    exact .done
  | act op next ih =>
    cases choices with
    | nil => cases ran
    | cons choice choices =>
      simp only [Proc.solo] at ran
      split at ran
      · cases ran
      · rename_i ans middle fires
        exact .act choice fires (ih ans ran)

/-- A task that can run alone, and whose end passes a check. -/
theorem Alone.exists_of_solo {task : Proc sig α} {holds : α → m.State → Prop}
    [∀ result after, Decidable (holds result after)] (choices : List m.Choice)
    (checked : (task.solo m choices before).any (fun out => decide (holds out.1 out.2)) = true) :
    ∃ result after, Alone m task before result after ∧ holds result after := by
  obtain ⟨⟨result, after⟩, ran, passes⟩ := (Option.any_eq_true _ _).mp checked
  exact ⟨result, after, .of_solo ran, of_decide_eq_true passes⟩

end Interleave
