import LongTrader.Overflow.Delivery

/-! The forward loop from its first round to its return: what it does while it is running,
after it has read that the source is closed, and after the last drain. -/

namespace LongTrader.Overflow

open Interleave

section Loop

variable {K T ι : Type}

/-- How far the forward loop has come: it is running, it has read that the source is
closed, or it has drained the buffer after that, for the last time. -/
inductive Phase where
  | running
  | closing
  | drained
  deriving DecidableEq, Repr

def phaseAfter : Phase → Act (sig K T) → Phase
  | .running, ⟨.loadSourceClosed, true⟩ => .closing
  | .closing, ⟨.take, _⟩ => .drained
  | phase, _ => phase

def phase (acts : List (Act (sig K T))) : Phase := acts.foldl phaseAfter .running

@[simp] theorem phase_append (first second : List (Act (sig K T))) :
    phase (first ++ second) = second.foldl phaseAfter (phase first) := by
  simp [phase]

theorem phase_stays {past : List (Act (sig K T))} (done : phase past = .drained)
    (more : List (Act (sig K T))) : phase (past ++ more) = .drained := by
  rw [phase_append, done]
  induction more with
  | nil => rfl
  | cons act rest ih => exact ih

/-- What the forward loop does in each phase. -/
def Loops (past : List (Act (sig K T))) (act : Act (sig K T)) : Prop :=
  match phase past, act.op with
  | .running, .loadSourceClosed | .running, .take | .running, .send _ => True
  | .running, .notified => carried past = [] ∧ past.getLast? = some ⟨.take, []⟩
  | .closing, .take => True
  | .drained, .send _ => True
  | _, _ => False

theorem phaseAfter_send (now : Phase) (item : T) (accepted : Bool) :
    phaseAfter now (⟨.send item, accepted⟩ : Act (sig K T)) = now := by
  cases now with
  | running => rfl
  | closing => rfl
  | drained => rfl

theorem phaseAfter_drained {now : Phase} {act : Act (sig K T)} (done : phaseAfter now act = .drained) :
    now = .drained ∨ ∃ items, act = ⟨.take, items⟩ := by
  unfold phaseAfter at done
  split at done
  · cases done
  · exact .inr ⟨_, rfl⟩
  · exact .inl done

theorem sendAll_loops {items : List (K × T)} {past : List (Act (sig K T))}
    (settled : phase past ≠ .closing) : (sendAll items).Justifies Loops past := by
  induction items generalizing past with
  | nil => trivial
  | cons slot rest ih =>
    refine .act (fun accepted => ?_) fun accepted => ?_
    · unfold Loops
      cases now : phase past with
      | running => trivial
      | closing => exact absurd now settled
      | drained => trivial
    · cases accepted with
      | true => exact ih (by simpa [phaseAfter_send] using settled)
      | false => trivial

theorem sendAll_phase {items : List (K × T)} {acts : List (Act (sig K T))} {accepted : Bool}
    (finishes : (sendAll items).Completes acts accepted) (past : List (Act (sig K T))) :
    phase (past ++ acts) = phase past := by
  induction items generalizing past acts with
  | nil =>
    obtain ⟨rfl, rfl⟩ := finishes
    simp
  | cons slot rest ih =>
    obtain ⟨answer, later, rfl, tail⟩ := Proc.completes_perform_bind.mp finishes
    have sent : phase (past ++ [⟨Op.send slot.2, answer⟩]) = phase past := by
      simp [phaseAfter_send]
    rw [List.append_cons]
    cases answer with
    | true => rw [ih tail, sent]
    | false =>
      obtain ⟨rfl, rfl⟩ := tail
      simpa using sent

theorem sendAll_accepts {items : List (K × T)} {acts : List (Act (sig K T))} {all : Bool}
    (finishes : (sendAll items).Completes acts all)
    (accepted : ∀ item, (⟨.send item, false⟩ : Act (sig K T)) ∉ acts) : all = true := by
  induction items generalizing acts with
  | nil => exact finishes.2.symm
  | cons slot rest ih =>
    obtain ⟨answer, later, rfl, tail⟩ := Proc.completes_perform_bind.mp finishes
    cases answer with
    | true => exact ih tail fun item member => accepted item (List.mem_cons_of_mem _ member)
    | false => exact absurd (List.mem_cons_self ..) (accepted slot.2)

theorem forwardLoop_loops (rounds : Nat) {past : List (Act (sig K T))} (idle : carried past = [])
    (running : phase past = .running) : (forwardLoop rounds).Justifies Loops past := by
  induction rounds generalizing past with
  | zero => trivial
  | succ rounds ih =>
    refine .act (fun closed => by simp [Loops, running]) fun closed => ?_
    cases closed with
    | true =>
      have closing : phase (past ++ [⟨Op.loadSourceClosed, true⟩]) = .closing := by
        simp [running, phaseAfter]
      refine .act (fun _ => by simp [Loops, closing]) fun drained => ?_
      refine .bind (sendAll_loops ?_) fun acts accepted finishes => trivial
      simp [running, phaseAfter]
    | false =>
      have loaded : phase (past ++ [⟨Op.loadSourceClosed, false⟩]) = .running := by
        simp [running, phaseAfter]
      have taken (items : List (K × T)) : phase (past ++ [⟨Op.loadSourceClosed, false⟩] ++
          [⟨Op.take, items⟩]) = .running := by
        rw [phase_append, loaded]
        rfl
      have held (items : List (K × T)) : carried (past ++ [⟨Op.loadSourceClosed, false⟩] ++
          [⟨Op.take, items⟩]) = items.map Prod.snd := by
        simp [carriedAfter, idle]
      refine .act (fun _ => by simp [Loops, loaded]) fun items => ?_
      cases items with
      | nil =>
        refine .act (fun _ => ?_) fun _ => ih ?_ ?_
        · simp only [Loops, taken]
          exact ⟨held [], List.getLast?_concat⟩
        · simpa [carriedAfter] using held []
        · rw [phase_append, taken]
          rfl
      | cons slot rest =>
        refine .bind (sendAll_loops ?_) fun acts accepted finishes => ?_
        · rw [taken]
          decide
        · have emptied := sendAll_completes (held _) finishes
          cases accepted with
          | true => exact ih emptied (by rw [sendAll_phase finishes, taken])
          | false => trivial

/-- A waiting loop has forwarded what it took, and found the buffer empty. -/
theorem waiting_notified {past : List (Act (sig K T))} (loops : Loops past ⟨.notified, ()⟩) :
    carried past = [] ∧ past.getLast? = some ⟨.take, []⟩ := by
  unfold Loops at loops
  cases now : phase past with
  | running =>
    rw [now] at loops
    exact loops
  | closing | drained =>
    rw [now] at loops
    exact loops.elim

/-- The actions of the forward loop. -/
def loopOps : Set (Op T)
  | .loadSourceClosed | .take | .send _ | .notified => True
  | _ => False

theorem sendAll_within (items : List (K × T)) : (sendAll items).Within loopOps := by
  induction items with
  | nil => trivial
  | cons slot rest ih =>
    refine .act trivial fun accepted => ?_
    cases accepted with
    | true => exact ih
    | false => trivial

theorem forwardLoop_within (rounds : Nat) :
    (forwardLoop rounds : Proc (sig K T) (Outcome T)).Within loopOps := by
  induction rounds with
  | zero => trivial
  | succ rounds ih =>
    refine .act trivial fun closed => ?_
    cases closed with
    | true => exact .act trivial fun drained => (sendAll_within drained).bind fun _ => trivial
    | false =>
      refine .act trivial fun items => ?_
      cases items with
      | nil => exact .act trivial fun _ => ih
      | cons slot rest =>
        refine (sendAll_within (slot :: rest)).bind fun accepted => ?_
        cases accepted with
        | true => exact ih
        | false => trivial

/-- An action by which the forward loop used a permit or found something to forward. -/
def busy : Act (sig K T) → Bool
  | ⟨.notified, _⟩ => true
  | ⟨.take, items⟩ => !items.isEmpty
  | _ => false

/-- A loop that returned has drained the buffer and sent on what it took; one that was
cut off was busy in each of its rounds. -/
theorem forwardLoop_returns {rounds : Nat} {past acts : List (Act (sig K T))} {outcome : Outcome T}
    (idle : carried past = []) (running : phase past = .running)
    (accepted : ∀ item, (⟨.send item, false⟩ : Act (sig K T)) ∉ acts)
    (finishes : (forwardLoop rounds).Completes acts outcome) :
    (outcome = .forwarded ∧ phase (past ++ acts) = .drained ∧ carried (past ++ acts) = []) ∨
      outcome = .forwarding ∧ rounds ≤ acts.countP busy := by
  induction rounds generalizing past acts with
  | zero =>
    obtain ⟨rfl, rfl⟩ := finishes
    exact .inr ⟨rfl, Nat.zero_le _⟩
  | succ rounds ih =>
    obtain ⟨closed, rest, rfl, continues⟩ := Proc.completes_perform_bind.mp finishes
    cases closed with
    | true =>
      obtain ⟨drained, tail, rfl, drains⟩ := Proc.completes_perform_bind.mp continues
      obtain ⟨first, last, all, rfl, sends, rfl, rfl⟩ := Proc.completes_bind.mp drains
      have held : carried (past ++ [⟨Op.loadSourceClosed, true⟩] ++ [⟨Op.take, drained⟩]) =
          drained.map Prod.snd := by
        simp [carriedAfter, idle]
      have emptied := sendAll_completes held sends
      have kept := sendAll_phase sends (past ++ [⟨Op.loadSourceClosed, true⟩] ++ [⟨Op.take, drained⟩])
      left
      refine ⟨rfl, ?_, by simpa using emptied⟩
      have final : phase (past ++ [⟨Op.loadSourceClosed, true⟩] ++ [⟨Op.take, drained⟩]) =
          .drained := by
        simp [running, phaseAfter]
      simpa using kept.trans final
    | false =>
      obtain ⟨items, tail, rfl, goes⟩ := Proc.completes_perform_bind.mp continues
      have held : carried (past ++ [⟨Op.loadSourceClosed, false⟩] ++ [⟨Op.take, items⟩]) =
          items.map Prod.snd := by
        simp [carriedAfter, idle]
      have still : phase (past ++ [⟨Op.loadSourceClosed, false⟩] ++ [⟨Op.take, items⟩]) =
          .running := by
        simp [running, phaseAfter]
      cases items with
      | nil =>
        obtain ⟨_, later, rfl, again⟩ := Proc.completes_perform_bind.mp goes
        have next := @ih (past ++ [⟨Op.loadSourceClosed, false⟩] ++ [⟨Op.take, []⟩] ++
          [⟨Op.notified, ()⟩]) later (by simpa [carriedAfter] using held)
          (by rw [phase_append, still]; rfl) (fun item member => accepted item (by simp [member])) again
        rcases next with ⟨rfl, done, empty⟩ | ⟨rfl, enough⟩
        · exact .inl ⟨rfl, by simpa using done, by simpa using empty⟩
        · refine .inr ⟨rfl, ?_⟩
          rw [List.countP_cons_of_neg Bool.false_ne_true, List.countP_cons_of_neg Bool.false_ne_true,
            List.countP_cons_of_pos rfl]
          omega
      | cons slot others =>
        obtain ⟨first, later, all, rfl, sends, again⟩ := Proc.completes_bind.mp goes
        have emptied := sendAll_completes held sends
        have kept := sendAll_phase sends
          (past ++ [⟨Op.loadSourceClosed, false⟩] ++ [⟨Op.take, slot :: others⟩])
        have answered : all = true := sendAll_accepts sends fun item member => accepted item (by simp [member])
        subst answered
        have next := @ih (past ++ [⟨Op.loadSourceClosed, false⟩] ++ [⟨Op.take, slot :: others⟩] ++ first)
          later emptied (kept.trans still) (fun item member => accepted item (by simp [member])) again
        rcases next with ⟨rfl, done, empty⟩ | ⟨rfl, enough⟩
        · exact .inl ⟨rfl, by simpa using done, by simpa using empty⟩
        · refine .inr ⟨rfl, ?_⟩
          rw [List.countP_cons_of_neg Bool.false_ne_true, List.countP_cons_of_pos rfl, List.countP_append]
          omega

end Loop

end LongTrader.Overflow
