import Mathlib.Data.List.Basic

/-! Conditions on the events of a run, each in the state that the event finds. Where two conditions
say the same as long as an invariant holds, and either of them keeps it, they say the same of a run. -/

namespace Runs

variable {σ ε : Type} (step : σ → ε → σ)

/-- A condition on every event of a run. -/
def Along (holds : σ → ε → Prop) : σ → List ε → Prop
  | _, [] => True
  | state, event :: rest => holds state event ∧ Along holds (step state event) rest

instance Along.decidable {holds : σ → ε → Prop} [∀ state event, Decidable (holds state event)]
    (state : σ) : (run : List ε) → Decidable (Along step holds state run)
  | [] => isTrue trivial
  | event :: rest =>
    @instDecidableAnd _ _ _ (Along.decidable (step state event) rest)

/-- Two machines that run side by side. -/
theorem foldl_pair {τ : Type} (other : τ → ε → τ) (run : List ε) (state : σ) (beside : τ) :
    run.foldl (fun both event => (step both.1 event, other both.2 event)) (state, beside) =
      (run.foldl step state, run.foldl other beside) := by
  induction run generalizing state beside with
  | nil => rfl
  | cons event rest ih => exact ih _ _

variable {step} {inv : σ → Prop} {holds meets : σ → ε → Prop}

theorem along_iff_split {state : σ} {run : List ε} :
    Along step holds state run ↔ ∀ earlier event later, run = earlier ++ event :: later →
      holds (earlier.foldl step state) event := by
  induction run generalizing state with
  | nil =>
    refine iff_of_true trivial fun earlier event later cut => ?_
    exact absurd cut (by simp)
  | cons first rest ih =>
    rw [Along, ih]
    constructor
    · rintro ⟨here, others⟩ earlier event later cut
      rcases earlier with _ | ⟨head, earlier⟩
      · obtain ⟨rfl, rfl⟩ := List.cons.inj cut
        exact here
      · obtain ⟨rfl, rfl⟩ := List.cons.inj cut
        exact others earlier event later rfl
    · intro each
      refine ⟨each [] first rest rfl, fun earlier event later cut => ?_⟩
      exact each (first :: earlier) event later (by rw [cut, List.cons_append])

/-- A condition that gives another as long as an invariant holds, which it keeps. -/
theorem Along.imp (gives : ∀ state event, inv state → meets state event → holds state event)
    (keeps : ∀ state event, inv state → meets state event → inv (step state event))
    {state : σ} (start : inv state) {run : List ε} (along : Along step meets state run) :
    Along step holds state run := by
  induction run generalizing state with
  | nil => trivial
  | cons event rest ih => exact ⟨gives state event start along.1, ih (keeps state event start along.1) along.2⟩

/-- Two conditions that say the same of each event of a run as long as an invariant holds, which
either of them keeps. -/
theorem along_congr_of_mem {run : List ε}
    (same : ∀ state, ∀ event ∈ run, inv state → (holds state event ↔ meets state event))
    (keeps : ∀ state, ∀ event ∈ run, inv state → meets state event → inv (step state event))
    {state : σ} (start : inv state) : Along step holds state run ↔ Along step meets state run := by
  induction run generalizing state with
  | nil => rfl
  | cons event rest ih =>
    have here : event ∈ event :: rest := List.mem_cons_self ..
    rw [Along, Along, same state event here start]
    refine and_congr_right fun met => ih ?_ ?_ (keeps state event here start met)
    · exact fun state event member => same state event (List.mem_cons_of_mem _ member)
    · exact fun state event member => keeps state event (List.mem_cons_of_mem _ member)

theorem along_congr (same : ∀ state event, inv state → (holds state event ↔ meets state event))
    (keeps : ∀ state event, inv state → meets state event → inv (step state event))
    {state : σ} (start : inv state) {run : List ε} :
    Along step holds state run ↔ Along step meets state run :=
  along_congr_of_mem (fun state event _ => same state event) (fun state event _ => keeps state event) start

end Runs
