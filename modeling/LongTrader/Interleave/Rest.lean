import LongTrader.Interleave.Expand
import Mathlib.Algebra.BigOperators.Group.Finset.Piecewise
import Mathlib.Data.Fintype.Basic
import Mathlib.Logic.Hydra

/-! A pool at rest: no task can perform its next action. Each task is a well-founded
tree, so finitely many of them always come to rest, whatever the schedule. -/

namespace Interleave

variable {sig : Signature} {m : Machine sig} {ι : Type} [DecidableEq ι] {Result : Type}

/-- No task can go on. -/
def AtRest (config : Config m ι Result) : Prop :=
  ∀ task choice, fire config task choice = none

instance [Fintype ι] [Fintype m.Choice] (config : Config m ι Result) : Decidable (AtRest config) :=
  decidable_of_iff (∀ task choice, (fire config task choice).isNone = true)
    (forall_congr' fun _ => forall_congr' fun _ => Option.isNone_iff_eq_none)

/-- The action that a task is about to perform. -/
def Proc.pending? : Proc sig Result → Option sig.Op
  | .done _ => none
  | .act op _ => some op

theorem Proc.exists_act {task : Proc sig Result} {op : sig.Op} (pending : task.pending? = some op) :
    ∃ next, task = .act op next := by
  cases task with
  | done value => cases pending
  | act other next =>
    obtain rfl := Option.some.inj pending
    exact ⟨next, rfl⟩

/-- An action that is pending at rest has to wait. -/
theorem AtRest.waits {config : Config m ι Result} (rest : AtRest config) {task : ι} {op : sig.Op}
    {next : sig.Ans op → Proc sig Result} (pending : config.procs task = .act op next)
    (choice : m.Choice) : m.exec op choice config.state = none := by
  have stuck := rest task choice
  unfold fire at stuck
  rw [pending] at stuck
  dsimp only at stuck
  split at stuck
  · assumption
  · cases stuck

/-- One residual task is left by another with one action. -/
def Proc.Later (after before : Proc sig Result) : Prop :=
  ∃ op next ans, before = .act op next ∧ after = next ans

theorem Proc.later_wellFounded : WellFounded (@Proc.Later sig Result) := by
  constructor
  intro task
  induction task with
  | done result =>
    constructor
    rintro after ⟨op, next, ans, none, _⟩
    cases none
  | act op next ih =>
    constructor
    rintro after ⟨_, _, ans, same, rfl⟩
    cases same
    exact ih ans

section Finite

variable [Fintype ι]

/-- The residual tasks of a pool. -/
def Config.residue (config : Config m ι Result) : Multiset (Proc sig Result) :=
  Finset.univ.val.map config.procs

theorem residue_step {config : Config m ι Result} {task : ι} {op : sig.Op}
    {next : sig.Ans op → Proc sig Result} (pending : config.procs task = .act op next)
    (ans : sig.Ans op) (state : m.State) :
    Relation.CutExpand Proc.Later
      (⟨state, Function.update config.procs task (next ans)⟩ : Config m ι Result).residue
      config.residue := by
  refine ⟨{next ans}, config.procs task, ?_, ?_⟩
  · intro after member
    rw [Multiset.mem_singleton.mp member]
    exact ⟨op, next, ans, pending, rfl⟩
  · have whole : (Finset.univ : Finset ι).val = task ::ₘ (Finset.univ.erase task).val := by
      rw [Finset.erase_val, Multiset.cons_erase (Finset.mem_univ task)]
    have others : (Finset.univ.erase task).val.map (Function.update config.procs task (next ans)) =
        (Finset.univ.erase task).val.map config.procs := by
      apply Multiset.map_congr rfl
      intro other member
      exact Function.update_of_ne (Finset.ne_of_mem_erase member) ..
    unfold Config.residue
    rw [whole, Multiset.map_cons, Multiset.map_cons, others]
    simp only [Function.update_self, ← Multiset.singleton_add]
    rw [add_right_comm, add_comm {next ans}, add_assoc, add_assoc, add_comm {next ans}, ← add_assoc]

/-- There is no infinite schedule: finitely many tasks come to rest. -/
theorem Run.comes_to_rest (config : Config m ι Result) :
    ∃ history final, Run config history final ∧ AtRest final := by
  have descends : WellFounded (InvImage (Relation.CutExpand Proc.Later)
      (Config.residue : Config m ι Result → Multiset (Proc sig Result))) :=
    InvImage.wf _ Proc.later_wellFounded.cutExpand
  induction config using descends.induction with
  | _ config ih =>
    by_cases rest : AtRest config
    · exact ⟨[], config, .start, rest⟩
    · unfold AtRest at rest
      push Not at rest
      obtain ⟨task, choice, goes⟩ := rest
      unfold fire at goes
      split at goes
      · exact absurd rfl goes
      · rename_i op next pending
        split at goes
        · exact absurd rfl goes
        · rename_i ans state fires
          obtain ⟨history, final, run, rested⟩ := ih _ (residue_step pending ans state)
          have first : Run config [Entry.of task op ans] _ := .step .start pending choice fires
          exact ⟨_, final, first.append run, rested⟩

omit [Fintype ι] in
theorem own_cons (task : ι) (entry : Entry sig ι) (history : List (Entry sig ι)) :
    own task (entry :: history) =
      if entry.task = task then entry.act :: own task history else own task history := by
  obtain ⟨other, act⟩ := entry
  split
  · rename_i same
    subst same
    exact own_cons_self act
  · rename_i different
    exact own_cons_of_ne different act

/-- What all tasks do together is what each of them does. -/
theorem countP_own (p : Act sig → Bool) (history : List (Entry sig ι)) :
    history.countP (fun entry => p entry.act) = ∑ task, (own task history).countP p := by
  induction history with
  | nil => simp
  | cons entry rest ih =>
    have each : ∀ task, (own task (entry :: rest)).countP p =
        (own task rest).countP p + if entry.task = task then (if p entry.act then 1 else 0) else 0 := by
      intro task
      rw [own_cons]
      split
      · rw [List.countP_cons]
      · rfl
    rw [List.countP_cons, ih, Finset.sum_congr rfl fun task _ => each task, Finset.sum_add_distrib]
    simp

end Finite

end Interleave
