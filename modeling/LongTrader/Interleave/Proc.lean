import Mathlib.Data.List.Basic
import Mathlib.Data.Set.Basic

/-! Tasks as trees of atomic actions. A task performs one action at a time and
continues from its answer; between two actions any other task may run. -/

namespace Interleave

/-- The atomic actions of a system and the type of each action's answer. -/
structure Signature where
  Op : Type
  Ans : Op → Type

/-- One performed action together with the answer it received. -/
structure Act (sig : Signature) where
  op : sig.Op
  ans : sig.Ans op

/-- What a task has still to do: return a result, or perform an action and
continue with its answer. -/
inductive Proc (sig : Signature) (Result : Type) : Type where
  | done (result : Result)
  | act (op : sig.Op) (next : sig.Ans op → Proc sig Result)

namespace Proc

variable {sig : Signature} {α β : Type}

def bind : Proc sig α → (α → Proc sig β) → Proc sig β
  | .done result, f => f result
  | .act op next, f => .act op (fun ans => (next ans).bind f)

instance : Monad (Proc sig) where
  pure := .done
  bind := bind

instance decidableDone (task : Proc sig α) : Decidable (∃ result, task = .done result) :=
  match task with
  | .done result => .isTrue ⟨result, rfl⟩
  | .act _ _ => .isFalse fun ⟨_, finished⟩ => nomatch finished

/-- The result of a task that has returned. -/
def result? : Proc sig α → Option α
  | .done result => some result
  | .act _ _ => none

theorem eq_done {task : Proc sig α} {result : α} (returned : task.result? = some result) :
    task = .done result := by
  cases task with
  | done value => rw [Option.some.inj returned]
  | act op next => cases returned

/-- The task that performs one action and returns its answer. -/
def perform (op : sig.Op) : Proc sig (sig.Ans op) := .act op .done

@[simp] theorem pure_eq (value : α) : (pure value : Proc sig α) = .done value := rfl

@[simp] theorem done_bind (value : α) (f : α → Proc sig β) : (.done value >>= f) = f value := rfl

@[simp] theorem act_bind (op : sig.Op) (next : sig.Ans op → Proc sig α) (f : α → Proc sig β) :
    (Proc.act op next >>= f) = .act op (fun ans => next ans >>= f) := rfl

@[simp] theorem perform_bind (op : sig.Op) (f : sig.Ans op → Proc sig β) :
    (perform op >>= f) = .act op f := rfl

/-- `acts` leads the task to its end with `result`. -/
def Completes : Proc sig α → List (Act sig) → α → Prop
  | .done value, acts, result => acts = [] ∧ value = result
  | .act op next, acts, result =>
    ∃ ans rest, acts = ⟨op, ans⟩ :: rest ∧ (next ans).Completes rest result

@[simp] theorem completes_done {value result : α} {acts : List (Act sig)} :
    (Proc.done value).Completes acts result ↔ acts = [] ∧ value = result := Iff.rfl

@[simp] theorem completes_act {op : sig.Op} {next : sig.Ans op → Proc sig α} {result : α}
    {acts : List (Act sig)} :
    (Proc.act op next).Completes acts result ↔
      ∃ ans rest, acts = ⟨op, ans⟩ :: rest ∧ (next ans).Completes rest result := Iff.rfl

theorem completes_perform_bind {op : sig.Op} {f : sig.Ans op → Proc sig β}
    {acts : List (Act sig)} {result : β} :
    (perform op >>= f).Completes acts result ↔
      ∃ ans rest, acts = ⟨op, ans⟩ :: rest ∧ (f ans).Completes rest result := Iff.rfl

/-- A sequential composition completes by completing its two halves in turn. -/
theorem completes_bind {task : Proc sig α} {f : α → Proc sig β} {acts : List (Act sig)}
    {result : β} :
    (task >>= f).Completes acts result ↔
      ∃ first rest value, acts = first ++ rest ∧ task.Completes first value ∧
        (f value).Completes rest result := by
  induction task generalizing acts with
  | done value =>
    constructor
    · intro finishes
      exact ⟨[], acts, value, rfl, ⟨rfl, rfl⟩, finishes⟩
    · rintro ⟨first, rest, given, rfl, ⟨rfl, rfl⟩, finishes⟩
      exact finishes
  | act op next ih =>
    constructor
    · rintro ⟨ans, rest, rfl, finishes⟩
      obtain ⟨first, tail, value, rfl, begins, ends⟩ := (ih ans).mp finishes
      exact ⟨⟨op, ans⟩ :: first, tail, value, rfl, ⟨ans, first, rfl, begins⟩, ends⟩
    · rintro ⟨first, tail, value, rfl, ⟨ans, rest, rfl, begins⟩, ends⟩
      exact ⟨ans, rest ++ tail, rfl, (ih ans).mpr ⟨rest, tail, value, rfl, begins, ends⟩⟩

theorem completes_map {task : Proc sig α} {f : α → β} {acts : List (Act sig)} {result : β} :
    (f <$> task).Completes acts result ↔ ∃ value, task.Completes acts value ∧ f value = result := by
  constructor
  · intro finishes
    obtain ⟨first, rest, value, rfl, begins, rfl, rfl⟩ := completes_bind.mp finishes
    exact ⟨value, by simpa using begins, rfl⟩
  · intro shape
    obtain ⟨value, finishes, rfl⟩ := shape
    exact completes_bind.mpr ⟨acts, [], value, by simp, finishes, rfl, rfl⟩

/-- `acts` leads from one residual task to another. -/
inductive Path : Proc sig α → List (Act sig) → Proc sig α → Prop where
  | stop {task : Proc sig α} : Path task [] task
  | act {op : sig.Op} {next : sig.Ans op → Proc sig α} {ans : sig.Ans op}
      (rest : Path (next ans) acts last) : Path (.act op next) (⟨op, ans⟩ :: acts) last

theorem Path.snoc {task : Proc sig α} {op : sig.Op} {next : sig.Ans op → Proc sig α}
    (path : Path task acts (.act op next)) (ans : sig.Ans op) :
    Path task (acts ++ [⟨op, ans⟩]) (next ans) := by
  generalize stays : Proc.act op next = last at path
  induction path with
  | stop =>
    subst stays
    exact .act .stop
  | act rest ih => exact .act (ih stays)

theorem path_done_iff {task : Proc sig α} {result : α} :
    Path task acts (.done result) ↔ task.Completes acts result := by
  constructor
  · intro path
    generalize ends : Proc.done result = last at path
    induction path with
    | stop =>
      subst ends
      exact ⟨rfl, rfl⟩
    | act rest ih => exact ⟨_, _, rfl, ih ends⟩
  · intro finishes
    induction task generalizing acts with
    | done value =>
      obtain ⟨rfl, rfl⟩ := finishes
      exact .stop
    | act op next ih =>
      obtain ⟨ans, rest, rfl, tail⟩ := finishes
      exact .act (ih ans tail)

theorem exists_completes [∀ op, Nonempty (sig.Ans op)] (task : Proc sig α) :
    ∃ acts result, task.Completes acts result := by
  induction task with
  | done value => exact ⟨[], value, rfl, rfl⟩
  | act op next ih =>
    obtain ⟨ans⟩ : Nonempty (sig.Ans op) := inferInstance
    obtain ⟨acts, result, finishes⟩ := ih ans
    exact ⟨⟨op, ans⟩ :: acts, result, ans, acts, rfl, finishes⟩

/-- Every partial path is the beginning of a complete one, so a property of all
complete paths that survives cutting a path short holds of unfinished tasks. -/
theorem Path.extends [∀ op, Nonempty (sig.Ans op)] {task last : Proc sig α}
    (path : Path task acts last) : ∃ rest result, task.Completes (acts ++ rest) result := by
  induction path with
  | @stop task =>
    obtain ⟨acts, result, finishes⟩ := exists_completes task
    exact ⟨acts, result, finishes⟩
  | act rest ih =>
    obtain ⟨tail, result, finishes⟩ := ih
    exact ⟨tail, result, _, _, rfl, finishes⟩

/-- Whatever it is answered, the task performs only actions from `allowed`. -/
def Within (allowed : Set sig.Op) : Proc sig α → Prop
  | .done _ => True
  | .act op next => op ∈ allowed ∧ ∀ ans, (next ans).Within allowed

@[simp] theorem within_done {allowed : Set sig.Op} {value : α} :
    (Proc.done value : Proc sig α).Within allowed := trivial

@[simp] theorem within_act {allowed : Set sig.Op} {op : sig.Op} {next : sig.Ans op → Proc sig α} :
    (Proc.act op next).Within allowed ↔ op ∈ allowed ∧ ∀ ans, (next ans).Within allowed := Iff.rfl

@[simp] theorem within_perform {allowed : Set sig.Op} {op : sig.Op} :
    (perform op).Within allowed ↔ op ∈ allowed := by
  simp [perform]

theorem Within.act {allowed : Set sig.Op} {op : sig.Op} {f : sig.Ans op → Proc sig β}
    (here : op ∈ allowed) (next : ∀ ans, (f ans).Within allowed) :
    (perform op >>= f).Within allowed := ⟨here, next⟩

/-- The second half of a composition need only answer for the values that the
first half can return. -/
theorem Within.bind_of_completes {allowed : Set sig.Op} {task : Proc sig α} {f : α → Proc sig β}
    (head : task.Within allowed)
    (tail : ∀ acts value, task.Completes acts value → (f value).Within allowed) :
    (task >>= f).Within allowed := by
  induction task with
  | done value => exact tail [] value ⟨rfl, rfl⟩
  | act op next ih =>
    refine ⟨head.1, ?_⟩
    intro ans
    apply ih ans (head.2 ans)
    intro acts value finishes
    exact tail (⟨op, ans⟩ :: acts) value ⟨ans, acts, rfl, finishes⟩

theorem Within.bind {allowed : Set sig.Op} {task : Proc sig α} {f : α → Proc sig β}
    (head : task.Within allowed) (tail : ∀ value, (f value).Within allowed) :
    (task >>= f).Within allowed :=
  head.bind_of_completes fun _ value _ => tail value

theorem Within.map {allowed : Set sig.Op} {task : Proc sig α} (within : task.Within allowed)
    (f : α → β) : (f <$> task).Within allowed :=
  within.bind fun _ => trivial

theorem Within.mono {allowed wider : Set sig.Op} {task : Proc sig α} (within : task.Within allowed)
    (more : allowed ⊆ wider) : task.Within wider := by
  induction task with
  | done value => trivial
  | act op next ih => exact ⟨more within.1, fun ans => ih ans (within.2 ans)⟩

theorem within_univ (task : Proc sig α) : task.Within Set.univ := by
  induction task with
  | done value => trivial
  | act op next ih => exact ⟨Set.mem_univ op, ih⟩

theorem Within.mem {allowed : Set sig.Op} {task last : Proc sig α} (within : task.Within allowed)
    (path : Path task acts last) : ∀ act ∈ acts, act.op ∈ allowed := by
  induction path with
  | stop => simp
  | act rest ih =>
    intro act member
    rcases List.mem_cons.mp member with rfl | member
    · exact within.1
    · exact ih (within.2 _) act member

/-- Whatever it is answered, each action of the task is justified by the actions
performed before it, those of `past` included. -/
def Justifies (claim : List (Act sig) → Act sig → Prop) : List (Act sig) → Proc sig α → Prop
  | _, .done _ => True
  | past, .act op next =>
    ∀ ans, claim past ⟨op, ans⟩ ∧ (next ans).Justifies claim (past ++ [⟨op, ans⟩])

section Justifies

variable {claim : List (Act sig) → Act sig → Prop} {past : List (Act sig)}

theorem Justifies.act {op : sig.Op} {f : sig.Ans op → Proc sig β}
    (here : ∀ ans, claim past ⟨op, ans⟩)
    (next : ∀ ans, (f ans).Justifies claim (past ++ [⟨op, ans⟩])) :
    (perform op >>= f).Justifies claim past :=
  fun ans => ⟨here ans, next ans⟩

theorem Justifies.bind {task : Proc sig α} {f : α → Proc sig β}
    (head : task.Justifies claim past)
    (tail : ∀ acts value, task.Completes acts value → (f value).Justifies claim (past ++ acts)) :
    (task >>= f).Justifies claim past := by
  induction task generalizing past with
  | done value => simpa using tail [] value ⟨rfl, rfl⟩
  | act op next ih =>
    intro ans
    refine ⟨(head ans).1, ih ans (head ans).2 ?_⟩
    intro acts value finishes
    simpa using tail (⟨op, ans⟩ :: acts) value ⟨ans, acts, rfl, finishes⟩

theorem Justifies.map {task : Proc sig α} (justifies : task.Justifies claim past) (f : α → β) :
    (f <$> task).Justifies claim past :=
  justifies.bind fun _ _ _ => trivial

theorem Justifies.and {other : List (Act sig) → Act sig → Prop} {task : Proc sig α}
    (one : task.Justifies claim past) (two : task.Justifies other past) :
    task.Justifies (fun past act => claim past act ∧ other past act) past := by
  induction task generalizing past with
  | done value => trivial
  | act op next ih =>
    intro ans
    exact ⟨⟨(one ans).1, (two ans).1⟩, ih ans (one ans).2 (two ans).2⟩

/-- A task that performs only actions that are justified anyway. -/
theorem Within.justifies {allowed : Set sig.Op} {task : Proc sig α} (within : task.Within allowed)
    (free : ∀ past act, act.op ∈ allowed → claim past act) : task.Justifies claim past := by
  induction task generalizing past with
  | done value => trivial
  | act op next ih =>
    intro ans
    exact ⟨free past ⟨op, ans⟩ within.1, ih ans (within.2 ans)⟩

theorem Justifies.at_act {task last : Proc sig α} {front back : List (Act sig)} {act : Act sig}
    (justifies : task.Justifies claim past) (path : Path task (front ++ act :: back) last) :
    claim (past ++ front) act := by
  induction front generalizing task past with
  | nil =>
    cases path with
    | act rest => simpa using (justifies _).1
  | cons head front ih =>
    cases path with
    | act rest => simpa using ih (justifies _).2 rest

end Justifies

end Proc

end Interleave
