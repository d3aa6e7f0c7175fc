import LongTrader.Interleave.Pool
import Mathlib.Data.List.Perm.Basic
import Mathlib.Data.List.Perm.Subperm

/-! Reasoning about the order of entries in the history of a pool: where the
actions of one task stand, and what the tasks do together. -/

namespace Interleave

section Own

variable {sig : Signature} {ι : Type} [DecidableEq ι] {history : List (Entry sig ι)} {task : ι}

/-- An action of a task has its place in the whole history, with the task's
earlier actions before it and its later ones after it. -/
theorem own_locate {first rest : List (Act sig)} {act : Act sig}
    (shape : own task history = first ++ act :: rest) :
    ∃ pre post, history = pre ++ ⟨task, act⟩ :: post ∧ own task pre = first ∧
      own task post = rest := by
  obtain ⟨front, back, rfl, begins, ends⟩ := List.filterMap_eq_append_iff.mp shape
  obtain ⟨skipped, entry, tail, rfl, silent, found, continues⟩ := List.filterMap_eq_cons_iff.mp ends
  split at found
  · rename_i same
    obtain rfl := Option.some.inj found
    subst same
    refine ⟨front ++ skipped, tail, by simp, ?_, continues⟩
    have none : own entry.task skipped = [] := List.filterMap_eq_nil_iff.mpr silent
    rw [own_append, none, List.append_nil]
    exact begins
  · cases found

theorem own_first {rest : List (Act sig)} {act : Act sig}
    (shape : own task history = act :: rest) :
    ∃ pre post, history = pre ++ ⟨task, act⟩ :: post ∧ own task pre = [] ∧
      own task post = rest :=
  own_locate (List.nil_append (act :: rest) ▸ shape)

theorem own_cons_self (act : Act sig) :
    own task ((⟨task, act⟩ : Entry sig ι) :: history) = act :: own task history := by
  simp [own]

theorem own_cons_of_ne {other : ι} (different : other ≠ task) (act : Act sig) :
    own task ((⟨other, act⟩ : Entry sig ι) :: history) = own task history := by
  simp [own, different]

/-- An action that a task had not yet performed at some point of the history comes,
with everything after it, later than that point. -/
theorem own_after {pre post : List (Entry sig ι)} {first rest : List (Act sig)} {act : Act sig}
    (shape : own task (pre ++ post) = first ++ act :: rest) (pending : act ∉ own task pre) :
    ∃ middle, first = own task pre ++ middle ∧ own task post = middle ++ act :: rest := by
  rw [own_append] at shape
  rcases List.append_eq_append_iff.mp shape with ⟨middle, begins, ends⟩ | ⟨middle, begins, ends⟩
  · exact ⟨middle, begins, ends⟩
  · cases middle with
    | nil =>
      rw [List.append_nil] at begins
      exact ⟨[], by rw [begins, List.append_nil], by simpa using ends.symm⟩
    | cons head tail =>
      obtain ⟨rfl, _⟩ := List.cons.inj ends
      exact absurd (by simp [begins]) pending

/-- In a run of tasks that justify their actions, each action is justified by what
its task did before it. -/
theorem Run.justified {m : Machine sig} {Result : Type} {start config : Config m ι Result}
    {claim : List (Act sig) → Act sig → Prop} {pre post : List (Entry sig ι)} {act : Act sig}
    (run : Run start (pre ++ ⟨task, act⟩ :: post) config)
    (justifies : (start.procs task).Justifies claim []) : claim (own task pre) act := by
  have path := run.path task
  rw [own_append, own_cons_self] at path
  simpa using justifies.at_act path

/-- A property of history and state that every justified action preserves holds along
every run. -/
theorem Run.invariant {m : Machine sig} {Result : Type} {start config : Config m ι Result}
    {claim : ι → List (Act sig) → Act sig → Prop}
    (justifies : ∀ task, (start.procs task).Justifies (claim task) [])
    (holds : List (Entry sig ι) → m.State → Prop) (base : holds [] start.state)
    (step : ∀ history before task op ans after choice, holds history before →
      m.exec op choice before = some (ans, after) → claim task (own task history) ⟨op, ans⟩ →
      holds (history ++ [Entry.of task op ans]) after)
    {history : List (Entry sig ι)} (run : Run start history config) : holds history config.state := by
  induction run with
  | start => exact base
  | step run pending choice fires ih =>
    exact step _ _ _ _ _ _ choice ih fires ((run.step pending choice fires).justified (justifies _))

omit [DecidableEq ι] in
/-- Put one entry in front of a pattern found after it. -/
theorem sublist_from {pre post pattern : List (Entry sig ι)} (entry : Entry sig ι)
    (later : pattern.Sublist post) : (entry :: pattern).Sublist (pre ++ entry :: post) :=
  (later.cons_cons entry).trans (List.sublist_append_right pre _)

/-- What came before the entry that is the `n`-th, counting from zero, to satisfy `p`. -/
def beforeNth {α : Type} (p : α → Bool) : Nat → List α → List α
  | _, [] => []
  | n, entry :: rest =>
    if p entry then match n with
      | 0 => []
      | n + 1 => entry :: beforeNth p n rest
    else entry :: beforeNth p n rest

theorem beforeNth_append {α : Type} {p : α → Bool} {pre post : List α} {entry : α}
    (hit : p entry = true) : beforeNth p (pre.countP p) (pre ++ entry :: post) = pre := by
  induction pre with
  | nil => simp [beforeNth, hit]
  | cons head rest ih =>
    by_cases here : p head = true
    · simp [beforeNth, here, ih]
    · simp [beforeNth, here, ih]

/-- Whether an entry is `task` performing `op`. -/
def Entry.isBy [DecidableEq sig.Op] (task : ι) (op : sig.Op) (entry : Entry sig ι) : Bool :=
  entry.task = task && entry.act.op = op

theorem countP_isBy [DecidableEq sig.Op] (op : sig.Op) :
    history.countP (Entry.isBy task op) = (own task history).countP (fun act => act.op = op) := by
  induction history with
  | nil => rfl
  | cons entry rest ih =>
    obtain ⟨other, act⟩ := entry
    by_cases same : other = task
    · subst same
      rw [own_cons_self, List.countP_cons, List.countP_cons, ih]
      simp [Entry.isBy]
    · rw [own_cons_of_ne same, List.countP_cons, ih]
      simp [Entry.isBy, same]

end Own

section Emitting

variable {sig : Signature} {α β γ : Type}

/-- Whatever it is answered, the actions of the task have the property at its end. -/
def Proc.Emits (holds : List (Act sig) → Prop) (task : Proc sig α) : Prop :=
  ∀ acts result, task.Completes acts result → holds acts

/-- A property of action lists that survives putting two of them together. -/
structure Composes (holds : List (Act sig) → Prop) : Prop where
  nil : holds []
  append : ∀ {first second}, holds first → holds second → holds (first ++ second)

variable {holds : List (Act sig) → Prop}

theorem Proc.Emits.done (composes : Composes holds) (value : α) :
    (Proc.done value : Proc sig α).Emits holds := by
  intro acts result finishes
  obtain ⟨rfl, rfl⟩ := finishes
  exact composes.nil

theorem Proc.Emits.bind (composes : Composes holds) {task : Proc sig α} {f : α → Proc sig β}
    (head : task.Emits holds) (tail : ∀ value, (f value).Emits holds) :
    (task >>= f).Emits holds := by
  intro acts result finishes
  obtain ⟨first, rest, value, rfl, begins, ends⟩ := Proc.completes_bind.mp finishes
  exact composes.append (head first value begins) (tail value rest result ends)

theorem Proc.Emits.act (composes : Composes holds) {op : sig.Op} {f : sig.Ans op → Proc sig α}
    (here : ∀ ans, holds [⟨op, ans⟩]) (next : ∀ ans, (f ans).Emits holds) :
    (Proc.perform op >>= f).Emits holds := by
  intro acts result finishes
  obtain ⟨ans, rest, rfl, continues⟩ := Proc.completes_perform_bind.mp finishes
  exact composes.append (here ans) (next ans rest result continues)

theorem Proc.Emits.map {task : Proc sig α} (emits : task.Emits holds) (f : α → β) :
    (f <$> task).Emits holds := by
  intro acts result finishes
  obtain ⟨value, completes, rfl⟩ := Proc.completes_map.mp finishes
  exact emits acts value completes

theorem Proc.Within.emits (composes : Composes holds) {allowed : Set sig.Op} {task : Proc sig α}
    (within : task.Within allowed) (each : ∀ act : Act sig, act.op ∈ allowed → holds [act]) :
    task.Emits holds := by
  intro acts result finishes
  have members := within.mem (Proc.path_done_iff.mpr finishes)
  clear finishes
  induction acts with
  | nil => exact composes.nil
  | cons act rest ih =>
    have head := each act (members act (by simp))
    have tail := ih fun other member => members other (by simp [member])
    exact composes.append head tail

/-- Everything due along the actions is seen by their end, and at no time more
is seen than was due so far. -/
structure Settles (due seen : Act sig → Option γ) (acts : List (Act sig)) : Prop where
  complete : acts.filterMap seen = acts.filterMap due
  partway : ∀ first rest, acts = first ++ rest → first.filterMap seen <+: first.filterMap due

variable {due seen : Act sig → Option γ}

private theorem settles_append {front back : List (Act sig)} (one : Settles due seen front)
    (two : Settles due seen back) : Settles due seen (front ++ back) := by
  refine ⟨by simp [one.complete, two.complete], ?_⟩
  intro first rest cut
  rcases List.append_eq_append_iff.mp cut with ⟨middle, rfl, rfl⟩ | ⟨middle, rfl, rfl⟩
  · rw [List.filterMap_append, List.filterMap_append, one.complete]
    exact (List.prefix_append_right_inj _).mpr (two.partway middle rest rfl)
  · exact one.partway first middle rfl

private theorem settles_nil : Settles due seen [] := by
  refine ⟨rfl, ?_⟩
  intro first rest cut
  obtain ⟨rfl, rfl⟩ := List.append_eq_nil_iff.mp cut.symm
  exact List.prefix_refl _

theorem settles_composes : Composes (Settles due seen) := ⟨settles_nil, settles_append⟩

/-- Actions that neither cause nor show anything. -/
theorem Settles.silent {acts : List (Act sig)} (noneDue : ∀ act ∈ acts, due act = none)
    (noneSeen : ∀ act ∈ acts, seen act = none) : Settles due seen acts := by
  refine ⟨by rw [List.filterMap_eq_nil_iff.mpr noneDue, List.filterMap_eq_nil_iff.mpr noneSeen], ?_⟩
  intro first rest cut
  have unseen : first.filterMap seen = [] := by
    apply List.filterMap_eq_nil_iff.mpr
    intro act member
    exact noneSeen act (by simp [cut, member])
  rw [unseen]
  exact List.nil_prefix

/-- A cause, some silent actions, and the action that shows the cause. -/
theorem Settles.paid {cause shows : Act sig} {middle : List (Act sig)} {value : γ}
    (causes : due cause = some value) (early : seen cause = none)
    (noneDue : ∀ act ∈ middle, due act = none) (noneSeen : ∀ act ∈ middle, seen act = none)
    (visible : seen shows = some value) (last : due shows = none) :
    Settles due seen (cause :: (middle ++ [shows])) := by
  have quietDue := List.filterMap_eq_nil_iff.mpr noneDue
  have quietSeen := List.filterMap_eq_nil_iff.mpr noneSeen
  have complete : (cause :: (middle ++ [shows])).filterMap seen =
      (cause :: (middle ++ [shows])).filterMap due := by
    simp [causes, early, quietDue, quietSeen, visible, last]
  refine ⟨complete, ?_⟩
  intro first rest cut
  rcases List.eq_nil_or_concat rest with rfl | ⟨front, final, rfl⟩
  · rw [List.append_nil] at cut
    subst cut
    exact complete ▸ List.prefix_refl _
  · have shorter : cause :: middle = first ++ front := by
      have same : (cause :: middle) ++ [shows] = (first ++ front) ++ [final] := by
        simpa using cut
      exact (List.append_inj' same rfl).1
    have unseen : first.filterMap seen = [] := by
      apply List.filterMap_eq_nil_iff.mpr
      intro act member
      have listed : act ∈ cause :: middle := by simp [shorter, member]
      rcases List.mem_cons.mp listed with rfl | inside
      · exact early
      · exact noneSeen act inside
    rw [unseen]
    exact List.nil_prefix

theorem Settles.of_path [∀ op, Nonempty (sig.Ans op)] {task last : Proc sig α}
    {acts : List (Act sig)} (emits : task.Emits (Settles due seen))
    (path : Proc.Path task acts last) : acts.filterMap seen <+: acts.filterMap due := by
  obtain ⟨rest, result, finishes⟩ := path.extends
  exact (emits _ result finishes).partway acts rest rfl

/-- Everything due along the actions is seen by their end, and also wherever the last action before
a cut has not just made something due. -/
structure Prompt (due seen : Act sig → Option γ) (acts : List (Act sig)) : Prop where
  complete : acts.filterMap seen = acts.filterMap due
  partway : ∀ first rest, acts = first ++ rest →
    (∀ act, first.getLast? = some act → due act = none) → first.filterMap seen = first.filterMap due

theorem prompt_composes : Composes (Prompt due seen) := by
  constructor
  · refine ⟨rfl, fun first rest cut _ => ?_⟩
    obtain ⟨rfl, rfl⟩ := List.append_eq_nil_iff.mp cut.symm
    rfl
  · intro front back one two
    refine ⟨by simp [one.complete, two.complete], fun first rest cut quiet => ?_⟩
    rcases List.append_eq_append_iff.mp cut with ⟨middle, rfl, rfl⟩ | ⟨middle, rfl, rfl⟩
    · have inner := two.partway middle rest rfl fun act last => quiet act (by simp [last])
      rw [List.filterMap_append, List.filterMap_append, one.complete, inner]
    · exact one.partway first middle rfl quiet

theorem Prompt.silent {acts : List (Act sig)} (noneDue : ∀ act ∈ acts, due act = none)
    (noneSeen : ∀ act ∈ acts, seen act = none) : Prompt due seen acts := by
  have same : ∀ part : List (Act sig), (∀ act ∈ part, act ∈ acts) → part.filterMap seen = part.filterMap due := by
    intro part inside
    rw [List.filterMap_eq_nil_iff.mpr fun act member => noneSeen act (inside act member),
      List.filterMap_eq_nil_iff.mpr fun act member => noneDue act (inside act member)]
  refine ⟨same acts fun _ => id, fun first rest cut _ => same first fun act member => ?_⟩
  simp [cut, member]

/-- A cause and, at once, the action that shows it. -/
theorem Prompt.pair {cause shows : Act sig} {value : γ} (causes : due cause = some value)
    (early : seen cause = none) (visible : seen shows = some value) (last : due shows = none) :
    Prompt due seen [cause, shows] := by
  have complete : [cause, shows].filterMap seen = [cause, shows].filterMap due := by
    simp [causes, early, visible, last]
  refine ⟨complete, fun first rest cut quiet => ?_⟩
  rcases first with _ | ⟨head, _ | ⟨next, more⟩⟩
  · rfl
  · obtain ⟨rfl, _⟩ := List.cons.inj cut
    rw [quiet cause rfl] at causes
    cases causes
  · obtain ⟨rfl, tail⟩ := List.cons.inj cut
    obtain ⟨rfl, ended⟩ := List.cons.inj tail
    obtain ⟨rfl, _⟩ := List.append_eq_nil_iff.mp ended.symm
    exact complete

theorem Prompt.of_path [∀ op, Nonempty (sig.Ans op)] {task last : Proc sig α} {acts : List (Act sig)}
    (emits : task.Emits (Prompt due seen)) (path : Proc.Path task acts last)
    (quiet : ∀ act, acts.getLast? = some act → due act = none) :
    acts.filterMap seen = acts.filterMap due := by
  obtain ⟨rest, result, finishes⟩ := path.extends
  exact (emits _ result finishes).partway acts rest rfl quiet

end Emitting

section Together

variable {sig : Signature} {ι : Type} [DecidableEq ι] {γ : Type}

/-- What the actions of a history show through a view. -/
def shown (view : Act sig → Option γ) (history : List (Entry sig ι)) : List γ :=
  history.filterMap (fun entry => view entry.act)

omit [DecidableEq ι] in
@[simp] theorem shown_nil (view : Act sig → Option γ) :
    shown view ([] : List (Entry sig ι)) = [] := rfl

omit [DecidableEq ι] in
@[simp] theorem shown_append (view : Act sig → Option γ) (first second : List (Entry sig ι)) :
    shown view (first ++ second) = shown view first ++ shown view second :=
  List.filterMap_append

omit [DecidableEq ι] in
/-- A view that shows nothing of the dropped entries shows the same of the rest. -/
theorem shown_filter {view : Act sig → Option γ} {keep : Entry sig ι → Bool}
    {history : List (Entry sig ι)}
    (kept : ∀ entry ∈ history, (view entry.act).isSome = true → keep entry = true) :
    shown view (history.filter keep) = shown view history := by
  induction history with
  | nil => rfl
  | cons entry rest ih =>
    have tail := ih fun other member => kept other (List.mem_cons_of_mem _ member)
    by_cases stays : keep entry = true
    · rw [List.filter_cons_of_pos stays]
      simp only [shown, List.filterMap_cons] at tail ⊢
      rw [tail]
    · have hidden : view entry.act = none := by
        by_contra visible
        exact stays (kept entry (List.mem_cons_self ..) (Option.isSome_iff_ne_none.mpr visible))
      rw [List.filter_cons_of_neg stays, tail]
      simp [shown, hidden]

private theorem shown_of_task (view : Act sig → Option γ) (task : ι)
    (history : List (Entry sig ι)) :
    shown view (history.filter (fun entry => entry.task = task)) =
      (own task history).filterMap view := by
  induction history with
  | nil => rfl
  | cons entry rest ih =>
    obtain ⟨other, act⟩ := entry
    by_cases same : other = task
    · subst same
      rw [own_cons_self, List.filter_cons_of_pos (by simp), List.filterMap_cons, ← ih]
      rfl
    · rw [own_cons_of_ne same, List.filter_cons_of_neg (by simpa using same), ih]

/-- The actions of a task in a history reduced to some of the tasks. -/
theorem own_filter (keep : ι → Bool) (task : ι) (history : List (Entry sig ι)) :
    own task (history.filter fun entry => keep entry.task) =
      if keep task then own task history else [] := by
  induction history with
  | nil => simp
  | cons entry rest ih =>
    obtain ⟨actor, act⟩ := entry
    by_cases kept : keep actor = true
    · rw [List.filter_cons_of_pos (by exact kept)]
      by_cases same : actor = task
      · subst same
        rw [own_cons_self, own_cons_self, ih, if_pos kept, if_pos kept]
      · rw [own_cons_of_ne same, own_cons_of_ne same, ih]
    · rw [List.filter_cons_of_neg (by exact kept), ih]
      by_cases same : actor = task
      · subst same
        rw [if_neg kept, if_neg kept]
      · rw [own_cons_of_ne same]

/-- If each task alone shows no more through one view than through another, then
so do all tasks together. -/
theorem shown_subperm {seen due : Act sig → Option γ} {history : List (Entry sig ι)}
    (each : ∀ task, ((own task history).filterMap seen).Subperm ((own task history).filterMap due)) :
    (shown seen history).Subperm (shown due history) := by
  generalize size : history.length = n
  induction n using Nat.strong_induction_on generalizing history with
  | _ n ih =>
    cases history with
    | nil => exact List.Subperm.refl _
    | cons entry rest =>
      have splits := List.filter_append_perm (fun other : Entry sig ι => other.task = entry.task)
        (entry :: rest)
      set others := (entry :: rest).filter (fun other => !decide (other.task = entry.task))
      have othersEq : others = (entry :: rest).filter (fun other => other.task ≠ entry.task) := by
        simp [others]
      have fewer : others.length < n := by
        rw [← size, othersEq, List.filter_cons_of_neg (by simp)]
        exact Nat.lt_succ_of_le (List.length_filter_le _ _)
      have tail : (shown seen others).Subperm (shown due others) := by
        apply ih others.length fewer _ rfl
        intro task
        rw [othersEq, own_filter fun other => decide (other ≠ entry.task)]
        split
        · exact each task
        · exact List.Subperm.refl _
      have head := each entry.task
      rw [← shown_of_task seen, ← shown_of_task due] at head
      have both := head.append tail
      rw [← shown_append, ← shown_append] at both
      exact ((splits.filterMap _).symm.subperm.trans both).trans (splits.filterMap _).subperm

/-- If each task alone shows the same through two views, then so do all tasks
together, up to order. -/
theorem shown_perm {seen due : Act sig → Option γ} {history : List (Entry sig ι)}
    (each : ∀ task, (own task history).filterMap seen = (own task history).filterMap due) :
    (shown seen history).Perm (shown due history) := by
  apply List.Subperm.antisymm
  · exact shown_subperm fun task => by rw [each task]
  · exact shown_subperm fun task => by rw [each task]

end Together

end Interleave
