import Mathlib.Data.List.Infix

/-! Clients that replace what they have resting at a venue: they cancel everything and place a plan, one
order after the other. The venue may refuse either, lose orders at any time, and hold orders of which it
said otherwise. -/

namespace Requote

variable {Quote State Reading : Type}

/-- A call to the venue, with its answer. -/
inductive Call (Quote : Type) where
  | cancelAll (done : Bool)
  | create (quote : Quote) (accepted : Bool)

/-- What may rest at a venue after some calls. -/
inductive Rests : List (Call Quote) → List Quote → Prop
  | start : Rests [] []
  | lost {calls book left} (before : Rests calls book) (fewer : left.Sublist book) : Rests calls left
  | cancelled {calls book} (before : Rests calls book) : Rests (calls ++ [.cancelAll true]) []
  | kept {calls book} (before : Rests calls book) : Rests (calls ++ [.cancelAll false]) book
  | absent {calls book quote} (before : Rests calls book) : Rests (calls ++ [.create quote false]) book
  | placed {calls book quote accepted} (before : Rests calls book) :
    Rests (calls ++ [.create quote accepted]) (book ++ [quote])

/-- The orders that were asked for since everything was cancelled. -/
def stand (quotes : List Quote) : Call Quote → List Quote
  | .cancelAll true => []
  | .cancelAll false => quotes
  | .create quote _ => quotes ++ [quote]

def standing (calls : List (Call Quote)) : List Quote := calls.foldl stand []

theorem standing_append (calls : List (Call Quote)) (call : Call Quote) :
    standing (calls ++ [call]) = stand (standing calls) call := by
  rw [standing, List.foldl_append]
  rfl

/-- Whatever the venue does, only what was asked for since everything was cancelled can rest. -/
theorem Rests.sublist {calls : List (Call Quote)} {book : List Quote} (rests : Rests calls book) :
    book.Sublist (standing calls) := by
  induction rests with
  | start => exact List.Sublist.refl _
  | lost _ fewer ih => exact fewer.trans ih
  | cancelled => exact List.nil_sublist _
  | kept _ ih => rwa [standing_append]
  | absent _ ih =>
    rw [standing_append]
    exact ih.trans (List.sublist_append_left _ _)
  | placed _ ih =>
    rw [standing_append]
    exact ih.append (List.Sublist.refl _)

/-- The orders of a plan are placed one after the other, by some clients only up to the first that is
refused. -/
def place (stops : Bool) (accepts : Nat → Bool) : Nat → List Quote → List (Call Quote)
  | _, [] => []
  | count, quote :: rest =>
    .create quote (accepts count) ::
      if stops && !accepts count then [] else place stops accepts (count + 1) rest

/-- What the venue answers in a cycle. -/
structure Answers where
  cancels : Bool
  accepts : Nat → Bool

/-- Everything is cancelled and the plan is placed; nothing is placed if the cancel fails. -/
def replace (stops : Bool) (answers : Answers) (plan : List Quote) : List (Call Quote) :=
  if answers.cancels then .cancelAll true :: place stops answers.accepts 0 plan else [.cancelAll false]

theorem foldl_place {stops : Bool} {accepts : Nat → Bool} {count : Nat} {plan : List Quote}
    (quotes : List Quote) {part : List (Call Quote)} (begun : part <+: place stops accepts count plan) :
    ∃ placed, placed <+: plan ∧ part.foldl stand quotes = quotes ++ placed := by
  induction plan generalizing count quotes part with
  | nil =>
    rw [List.prefix_nil.mp begun]
    exact ⟨[], List.prefix_rfl, (List.append_nil _).symm⟩
  | cons quote rest ih =>
    rw [place] at begun
    cases part with
    | nil => exact ⟨[], List.nil_prefix, (List.append_nil _).symm⟩
    | cons call part =>
      obtain ⟨rfl, more⟩ := List.cons_prefix_cons.mp begun
      split at more
      · rw [List.prefix_nil.mp more]
        exact ⟨[quote], List.cons_prefix_cons.mpr ⟨rfl, List.nil_prefix⟩, rfl⟩
      · obtain ⟨placed, first, stood⟩ := ih (quotes ++ [quote]) more
        refine ⟨quote :: placed, List.cons_prefix_cons.mpr ⟨rfl, first⟩, ?_⟩
        rw [List.foldl_cons, stand, stood, List.append_assoc]
        rfl

theorem Rests.accepted {stops : Bool} {accepts : Nat → Bool} (all : ∀ count, accepts count = true)
    (count : Nat) (plan : List Quote) {calls : List (Call Quote)} {book : List Quote}
    (before : Rests calls book) : Rests (calls ++ place stops accepts count plan) (book ++ plan) := by
  induction plan generalizing calls book count with
  | nil => simpa [place] using before
  | cons quote rest ih =>
    have more := ih (count + 1) (@Rests.placed _ _ _ quote (accepts count) before)
    simpa [place, all] using more

/-- A venue that accepts everything has the whole plan. -/
theorem Rests.replaced {stops : Bool} {answers : Answers} (cancels : answers.cancels = true)
    (accepts : ∀ count, answers.accepts count = true) (plan : List Quote) :
    Rests (replace stops answers plan) plan := by
  rw [replace, if_pos cancels]
  exact Rests.accepted accepts 0 plan (Rests.cancelled Rests.start)

/-- A client that runs in cycles. -/
def run (tick : State → Reading → State × List (Call Quote)) :
    State → List Reading → State × List (Call Quote)
  | state, [] => (state, [])
  | state, reading :: rest =>
    let ticked := tick state reading
    let later := run tick ticked.1 rest
    (later.1, ticked.2 ++ later.2)

/-- Each cycle leaves the venue alone, or replaces what rests by a plan for what was read. -/
structure Replaces (tick : State → Reading → State × List (Call Quote)) (sound : State → Prop)
    (plans : Reading → List Quote → Prop) : Prop where
  keeps : ∀ state reading, sound state → sound (tick state reading).1
  cycle : ∀ state reading, sound state → (tick state reading).2 = [] ∨
    ∃ stops answers plan, plans reading plan ∧ (tick state reading).2 = replace stops answers plan

theorem standing_replace {stops : Bool} {answers : Answers} {plan : List Quote} (calls : List (Call Quote))
    {part : List (Call Quote)} (begun : part <+: replace stops answers plan) :
    standing (calls ++ part) <+: plan ∨ standing (calls ++ part) = standing calls := by
  rw [standing, List.foldl_append]
  rw [replace] at begun
  cases part with
  | nil => exact .inr rfl
  | cons call rest =>
    split at begun
    · obtain ⟨rfl, more⟩ := List.cons_prefix_cons.mp begun
      obtain ⟨placed, first, stood⟩ := foldl_place [] more
      left
      rw [List.foldl_cons, stand, stood]
      exact first
    · obtain ⟨rfl, more⟩ := List.cons_prefix_cons.mp begun
      rw [List.prefix_nil.mp more]
      exact .inr rfl

variable {tick : State → Reading → State × List (Call Quote)} {sound : State → Prop}
  {plans : Reading → List Quote → Prop}

/-- All that was asked for since everything was cancelled is the first part of one plan. -/
theorem Replaces.standing (replaces : Replaces tick sound plans) {seen readings : List Reading}
    (all : ∀ reading ∈ readings, reading ∈ seen) {calls part : List (Call Quote)}
    (start : Requote.standing calls = [] ∨
      ∃ reading ∈ seen, ∃ plan, plans reading plan ∧ Requote.standing calls <+: plan)
    {state : State} (holds : sound state) (begun : part <+: (run tick state readings).2) :
    Requote.standing (calls ++ part) = [] ∨
      ∃ reading ∈ seen, ∃ plan, plans reading plan ∧ Requote.standing (calls ++ part) <+: plan := by
  induction readings generalizing state calls part with
  | nil => rwa [List.prefix_nil.mp begun, List.append_nil]
  | cons reading rest ih =>
    have within : ∀ part, part <+: (tick state reading).2 → Requote.standing (calls ++ part) = [] ∨
        ∃ reading ∈ seen, ∃ plan, plans reading plan ∧ Requote.standing (calls ++ part) <+: plan := by
      intro part begun
      rcases replaces.cycle state reading holds with idle | ⟨stops, answers, plan, planned, cycle⟩
      · rw [idle] at begun
        rwa [List.prefix_nil.mp begun, List.append_nil]
      · rw [cycle] at begun
        rcases standing_replace calls begun with fresh | same
        · exact .inr ⟨reading, all reading List.mem_cons_self, plan, planned, fresh⟩
        · rwa [same]
    rw [run] at begun
    rcases List.prefix_or_prefix_of_prefix begun (List.prefix_append _ _) with early | ⟨later, rfl⟩
    · exact within part early
    · rw [← List.append_assoc]
      apply ih (fun reading member => all reading (List.mem_cons_of_mem _ member))
      · exact within _ List.prefix_rfl
      · exact replaces.keeps state reading holds
      · exact (List.prefix_append_right_inj _).mp begun

/-- At any moment of any run, whatever the venue does, what rests is part of one plan. -/
theorem Replaces.rests (replaces : Replaces tick sound plans) {state : State} (holds : sound state)
    {readings : List Reading} {calls : List (Call Quote)} (begun : calls <+: (run tick state readings).2)
    {book : List Quote} (rests : Rests calls book) :
    book = [] ∨ ∃ reading ∈ readings, ∃ plan, plans reading plan ∧ book.Sublist plan := by
  have part := rests.sublist
  have start : Requote.standing ([] : List (Call Quote)) = [] := rfl
  rcases replaces.standing (fun _ member => member) (.inl start) holds begun with none | some
  · rw [List.nil_append] at none
    rw [none] at part
    exact .inl (List.sublist_nil.mp part)
  · obtain ⟨reading, member, plan, planned, first⟩ := some
    exact .inr ⟨reading, member, plan, planned, part.trans first.sublist⟩

end Requote
