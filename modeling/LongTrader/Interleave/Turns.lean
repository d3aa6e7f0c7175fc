import LongTrader.Interleave.History
import Mathlib.Data.List.Induction

/-! Tasks that pass two points, one after the other: who has passed the first and
not yet the second, and what follows when they pass the second in turn. -/

namespace Interleave

section Turns

variable {sig : Signature} {ι : Type} [DecidableEq ι] {γ : Type}

/-- The waiting tasks after one more entry. -/
def enqueue (due seen : Act sig → Option γ) (waiting : List ι) (entry : Entry sig ι) : List ι :=
  if (due entry.act).isSome then waiting ++ [entry.task]
  else if (seen entry.act).isSome then waiting.erase entry.task
  else waiting

/-- The tasks with something due that is not yet seen, the longest waiting first. -/
def queue (due seen : Act sig → Option γ) (history : List (Entry sig ι)) : List ι :=
  history.foldl (enqueue due seen) []

/-- Whatever is seen comes from the task that has waited longest. -/
def InTurn (due seen : Act sig → Option γ) (history : List (Entry sig ι)) : Prop :=
  ∀ pre entry post, history = pre ++ entry :: post → (seen entry.act).isSome = true →
    (queue due seen pre).head? = some entry.task

variable {due seen : Act sig → Option γ} {history : List (Entry sig ι)}

theorem queue_snoc (entry : Entry sig ι) :
    queue due seen (history ++ [entry]) = enqueue due seen (queue due seen history) entry := by
  simp [queue]

theorem InTurn.before {post : List (Entry sig ι)} (turns : InTurn due seen (history ++ post)) :
    InTurn due seen history := by
  intro pre entry rest shape visible
  exact turns pre entry (rest ++ post) (by simp [shape]) visible

/-- Check a history for turns, continuing from a queue. -/
def takesTurns (due seen : Act sig → Option γ) : List ι → List (Entry sig ι) → Bool
  | _, [] => true
  | waiting, entry :: rest =>
    ((seen entry.act).isNone || waiting.head? = some entry.task) &&
      takesTurns due seen (enqueue due seen waiting entry) rest

private theorem takesTurns_at {waiting : List ι} {pre post : List (Entry sig ι)}
    {entry : Entry sig ι} (checked : takesTurns due seen waiting (pre ++ entry :: post) = true)
    (visible : (seen entry.act).isSome = true) :
    (pre.foldl (enqueue due seen) waiting).head? = some entry.task := by
  induction pre generalizing waiting with
  | nil =>
    simp only [List.nil_append, takesTurns, Bool.and_eq_true, Bool.or_eq_true,
      decide_eq_true_eq] at checked
    rcases checked.1 with unseen | first
    · rw [Option.isNone_iff_eq_none] at unseen
      simp [unseen] at visible
    · exact first
  | cons head rest ih =>
    simp only [List.cons_append, takesTurns, Bool.and_eq_true] at checked
    exact ih checked.2

theorem InTurn.of_takesTurns (checked : takesTurns due seen [] history = true) :
    InTurn due seen history := by
  intro pre entry post shape visible
  subst shape
  exact takesTurns_at checked visible

/-- Along its own actions a task shows, in order, what was due. -/
def Paced (due seen : Act sig → Option γ) (acts : List (Act sig)) : Prop :=
  ∀ first rest, acts = first ++ rest → first.filterMap seen <+: first.filterMap due

theorem Paced.before {first rest : List (Act sig)} (paced : Paced due seen (first ++ rest)) :
    Paced due seen first := by
  intro front back shape
  exact paced front (back ++ rest) (by simp [shape])

theorem Paced.whole {acts : List (Act sig)} (paced : Paced due seen acts) :
    acts.filterMap seen <+: acts.filterMap due :=
  paced acts [] (by simp)

theorem Paced.of_path {α : Type} [∀ op, Nonempty (sig.Ans op)] {task last : Proc sig α}
    {acts : List (Act sig)} (emits : task.Emits (Settles due seen))
    (path : Proc.Path task acts last) : Paced due seen acts := by
  obtain ⟨tail, result, finishes⟩ := path.extends
  intro first rest shape
  exact (emits _ result finishes).partway first (rest ++ tail) (by simp [shape])

/-- The queue with what each waiting task still has to show. -/
structure Backlog (due seen : Act sig → Option γ) (history : List (Entry sig ι))
    (waiting : List (ι × γ)) : Prop where
  tasks : waiting.map Prod.fst = queue due seen history
  total : shown due history = shown seen history ++ waiting.map Prod.snd
  each : ∀ task, (own task history).filterMap due =
    (own task history).filterMap seen ++ (waiting.filter (·.1 = task)).map Prod.snd

section Steps

variable {waiting : List (ι × γ)} {task : ι} {act : Act sig} {value : γ}

private theorem own_snoc (other : ι) :
    own other (history ++ [(⟨task, act⟩ : Entry sig ι)]) =
      own other history ++ if task = other then [act] else [] := by
  split
  · rename_i same
    subst same
    simp
  · rename_i different
    rw [own_append, own_singleton_of_ne different]

theorem Backlog.joins (backlog : Backlog due seen history waiting) (causes : due act = some value)
    (early : seen act = none) :
    Backlog due seen (history ++ [(⟨task, act⟩ : Entry sig ι)]) (waiting ++ [(task, value)]) := by
  refine ⟨?_, ?_, ?_⟩
  · rw [queue_snoc, ← backlog.tasks]
    simp [enqueue, causes]
  · rw [shown_append, shown_append, backlog.total]
    simp [shown, causes, early]
  · intro other
    rw [own_snoc, List.filterMap_append, List.filterMap_append, backlog.each other]
    by_cases same : task = other
    · simp [same, causes, early]
    · simp [same]

theorem Backlog.passes (backlog : Backlog due seen history waiting) (noneDue : due act = none)
    (noneSeen : seen act = none) :
    Backlog due seen (history ++ [(⟨task, act⟩ : Entry sig ι)]) waiting := by
  refine ⟨?_, ?_, ?_⟩
  · rw [queue_snoc, ← backlog.tasks]
    simp [enqueue, noneDue, noneSeen]
  · rw [shown_append, shown_append, backlog.total]
    simp [shown, noneDue, noneSeen]
  · intro other
    rw [own_snoc, List.filterMap_append, List.filterMap_append, backlog.each other]
    by_cases same : task = other
    · simp [same, noneDue, noneSeen]
    · simp [same]

/-- The first in the queue shows what has been due for longest. -/
theorem Backlog.leaves (backlog : Backlog due seen history waiting) (noneDue : due act = none)
    (visible : seen act = some value) (first : (queue due seen history).head? = some task)
    (paced : Paced due seen (own task (history ++ [(⟨task, act⟩ : Entry sig ι)]))) :
    ∃ rest, waiting = (task, value) :: rest ∧
      Backlog due seen (history ++ [(⟨task, act⟩ : Entry sig ι)]) rest := by
  rw [← backlog.tasks] at first
  cases waiting with
  | nil => cases first
  | cons head rest =>
    obtain ⟨actor, oldest⟩ := head
    obtain rfl : actor = task := by simpa using first
    have mine := backlog.each actor
    have next := paced.whole
    rw [own_snoc, List.filterMap_append, List.filterMap_append, mine] at next
    obtain rfl : value = oldest := by
      simpa [noneDue, visible] using next
    refine ⟨rest, rfl, ?_, ?_, ?_⟩
    · rw [queue_snoc, ← backlog.tasks]
      simp [enqueue, noneDue, visible]
    · rw [shown_append, shown_append, backlog.total]
      simp [shown, noneDue, visible]
    · intro other
      rw [own_snoc, List.filterMap_append, List.filterMap_append, backlog.each other]
      by_cases same : actor = other
      · simp [same, noneDue, visible]
      · simp [same]

end Steps

/-- Tasks that take turns keep a backlog of what is still to be shown. -/
theorem InTurn.backlog (turns : InTurn due seen history)
    (apart : ∀ act, due act = none ∨ seen act = none)
    (paced : ∀ task, Paced due seen (own task history)) :
    ∃ waiting, Backlog due seen history waiting := by
  induction history using List.reverseRecOn with
  | nil => exact ⟨[], rfl, rfl, fun _ => rfl⟩
  | append_singleton history entry ih =>
    obtain ⟨task, act⟩ := entry
    have earlier : ∀ other, Paced due seen (own other history) := by
      intro other
      have whole := paced other
      rw [own_append] at whole
      exact whole.before
    obtain ⟨waiting, backlog⟩ := ih turns.before earlier
    cases causes : due act with
    | some value =>
      have early : seen act = none := (apart act).resolve_left (by simp [causes])
      exact ⟨_, backlog.joins causes early⟩
    | none =>
      cases visible : seen act with
      | none => exact ⟨waiting, backlog.passes causes visible⟩
      | some value =>
        have first := turns history ⟨task, act⟩ [] rfl (by simp [visible])
        obtain ⟨rest, _, left⟩ := backlog.leaves causes visible first (paced task)
        exact ⟨rest, left⟩

/-- What tasks show in turn is, in the same order, what was due first. -/
theorem InTurn.shown_append_waiting (turns : InTurn due seen history)
    (apart : ∀ act, due act = none ∨ seen act = none)
    (paced : ∀ task, Paced due seen (own task history)) :
    ∃ waiting : List γ, waiting.length = (queue due seen history).length ∧
      shown due history = shown seen history ++ waiting := by
  obtain ⟨waiting, backlog⟩ := turns.backlog apart paced
  refine ⟨waiting.map Prod.snd, ?_, backlog.total⟩
  rw [← backlog.tasks]
  simp

end Turns

end Interleave
