import LongTrader.Interleave.Rest
import LongTrader.Overflow.Accounts
import LongTrader.Overflow.ForwardLoop

/-! What closing a channel does to the items on it. Whether one stays in the buffer for
good depends on whether it was pushed after the forward loop drained the buffer for the
last time. -/

namespace LongTrader.Overflow

open Interleave

section Runs

variable {K T ι : Type} [DecidableEq K] [DecidableEq ι] {settings : Settings K T} {rounds : Nat}
  {calls : ι → Call T} {history : List (Entry (sig K T) (Task ι))}
  {config : Config (machine settings) (Task ι) (Outcome T)}

/-- An action that puts an item into the buffer. -/
def Pushes (act : Act (sig K T)) : Prop := ∃ item gone, act = ⟨.push item, .kept gone⟩

/-- A sender that has pushed wakes the loop next. -/
def Wakes (past : List (Act (sig K T))) (act : Act (sig K T)) : Prop :=
  (∃ last, past.getLast? = some last ∧ Pushes last) → act.op = .notifyOne

/-- What each task on a channel may do, with what closing depends on. -/
def attends (settings : Settings K T) (task : Task ι) (past : List (Act (sig K T)))
    (act : Act (sig K T)) : Prop :=
  performs settings task past act ∧
    match task with
    | .forwardLoop => Loops past act
    | .call _ => Wakes past act

omit [DecidableEq K] in
theorem program_wakes (settings : Settings K T) (call : Call T) :
    (call.program settings).Justifies Wakes [] := by
  have quiet : ∀ {past : List (Act (sig K T))} {act : Act (sig K T)},
      (∀ last, past.getLast? = some last → ¬ Pushes last) → Wakes past act := by
    rintro past act none ⟨last, found, pushes⟩
    exact absurd pushes (none last found)
  cases call with
  | send item =>
    unfold Call.program send
    cases settings.policy with
    | block => exact .act (fun _ => quiet (by simp)) fun _ => trivial
    | dropOldest | coalesce =>
      refine .act (fun _ => quiet (by simp)) fun gone => ?_
      cases gone with
      | true => trivial
      | false =>
        refine .act (fun _ => quiet (by simp [Pushes])) fun pushed => ?_
        cases pushed with
        | panicked => trivial
        | kept evicted => exact .act (fun _ _ => rfl) fun _ => trivial
  | close => exact .act (fun _ => quiet (by simp)) fun _ => .act (fun _ _ => rfl) fun _ => trivial
  | recv => exact .act (fun _ => quiet (by simp)) fun _ => trivial
  | dropReceiver => exact .act (fun _ => quiet (by simp)) fun _ => trivial

omit [DecidableEq ι] in
theorem opened_attends (settings : Settings K T) (rounds : Nat) (calls : ι → Call T) (task : Task ι) :
    ((opened settings rounds calls).procs task).Justifies (attends settings task) [] := by
  have performed := opened_justifies settings rounds calls task
  cases task with
  | forwardLoop => exact performed.and (forwardLoop_loops rounds rfl rfl)
  | call id => exact performed.and (program_wakes settings (calls id))

/-- An item was pushed after the forward loop had drained the buffer for the last time. -/
def LatePush (history : List (Entry (sig K T) (Task ι))) : Prop :=
  ∃ pre entry post, history = pre ++ entry :: post ∧ Pushes entry.act ∧
    phase (own .forwardLoop pre) = .drained

omit [DecidableEq K] in
theorem LatePush.drained (late : LatePush history) : phase (own .forwardLoop history) = .drained := by
  obtain ⟨pre, entry, post, rfl, _, done⟩ := late
  rw [own_append]
  exact phase_stays done _

omit [DecidableEq K] in
theorem latePush_snoc (next : Entry (sig K T) (Task ι)) :
    LatePush (history ++ [next]) ↔
      LatePush history ∨ Pushes next.act ∧ phase (own .forwardLoop history) = .drained := by
  constructor
  · rintro ⟨pre, entry, post, split, pushes, done⟩
    rcases List.eq_nil_or_concat post with rfl | ⟨front, last, rfl⟩
    · obtain ⟨rfl, same⟩ := List.append_inj' split rfl
      obtain rfl := (List.cons.inj same).1
      exact .inr ⟨pushes, done⟩
    · rw [List.concat_eq_append, ← List.cons_append, ← List.append_assoc] at split
      obtain ⟨rfl, _⟩ := List.append_inj' split rfl
      exact .inl ⟨pre, entry, front, rfl, pushes, done⟩
  · rintro (⟨pre, entry, post, rfl, pushes, done⟩ | ⟨pushes, done⟩)
    · exact ⟨pre, entry, post ++ [next], by simp, pushes, done⟩
    · exact ⟨history, next, [], rfl, pushes, done⟩

/-- What closing leaves in the buffer, and who will wake the loop. -/
structure Closes (settings : Settings K T) (history : List (Entry (sig K T) (Task ι)))
    (pipe : Pipe K T) : Prop where
  delivers : Delivers settings history pipe
  accounts : Accounts settings history pipe
  leftover : phase (own .forwardLoop history) = .drained → (pipe.buf ≠ [] ↔ LatePush history)
  wakes : (own .forwardLoop history).getLast? = some ⟨.take, []⟩ → pipe.buf ≠ [] →
    pipe.notify = true ∨
      ∃ id last, (own (.call id) history).getLast? = some last ∧ Pushes last

section ClosingSteps

variable {before after : Pipe K T} {task : Task ι} {op : Op T} {ans : op.Ans K}

omit [DecidableEq ι] in
theorem pushItem_ne_nil {buf : List (K × T)} (tidy : Tidy settings buf) (item : T) :
    (pushItem settings item buf).2 ≠ [] := by
  rcases pushItem_cases tidy.fits item with ⟨_, present, pushed⟩ | ⟨_, ⟨_, pushed⟩ | ⟨_, _, _, pushed⟩⟩
  · obtain ⟨front, old, back, _, _, written⟩ := replace_split present item
    rw [pushed, written]
    simp
  · rw [pushed]
    simp
  · rw [pushed]
    simp

omit [DecidableEq ι] in
/-- What neither pushes nor drains leaves the buffer alone. -/
theorem buf_kept (fires : before.exec settings op = some (ans, after))
    (noPush : ¬ Pushes (⟨op, ans⟩ : Act (sig K T))) (noTake : op ≠ .take) : after.buf = before.buf := by
  rw [exec_buf fires]
  cases op with
  | push item =>
    cases ans with
    | panicked => rfl
    | kept gone => exact absurd ⟨item, gone, rfl⟩ noPush
  | take => exact absurd rfl noTake
  | isClosed | notifyOne | send | loadSourceClosed | storeSourceClosed | notified | receive
  | dropReceiver => rfl

theorem leftover_step (tidy : Tidy settings before.buf)
    (leftover : phase (own .forwardLoop history) = .drained → (before.buf ≠ [] ↔ LatePush history))
    (fires : before.exec settings op = some (ans, after))
    (may : attends settings task (own task history) ⟨op, ans⟩)
    (done : phase (own .forwardLoop (history ++ [entry task op ans])) = .drained) :
    after.buf ≠ [] ↔ LatePush (history ++ [entry task op ans]) := by
  rw [latePush_snoc]
  by_cases already : phase (own .forwardLoop history) = .drained
  · by_cases pushes : Pushes (⟨op, ans⟩ : Act (sig K T))
    · obtain ⟨item, gone, same⟩ := pushes
      obtain ⟨rfl, rfl⟩ := Act.mk.inj same
      have filled : after.buf ≠ [] := by
        rw [exec_buf fires]
        exact pushItem_ne_nil tidy item
      exact iff_of_true filled (.inr ⟨⟨item, gone, rfl⟩, already⟩)
    · have noTake : op ≠ .take := by
        rintro rfl
        cases task with
        | forwardLoop =>
          have loops := may.2
          simp only [Loops, already] at loops
        | call id => exact may.1
      rw [buf_kept fires pushes noTake, leftover already]
      simp [pushes]
  · -- Only the last drain ends the phase before it, and it empties the buffer.
    have takes : ∃ items, (⟨op, ans⟩ : Act (sig K T)) = ⟨.take, items⟩ := by
      cases task with
      | forwardLoop =>
        rw [own_append, own_singleton_self, phase_append] at done
        exact (phaseAfter_drained done).resolve_left already
      | call id =>
        rw [own_append, own_singleton_of_ne (by simp), List.append_nil] at done
        exact absurd done already
    obtain ⟨items, same⟩ := takes
    obtain ⟨rfl, rfl⟩ := Act.mk.inj same
    have emptied : after.buf = [] := exec_buf fires
    refine iff_of_false (fun filled => filled emptied) ?_
    rintro (late | ⟨⟨item, gone, other⟩, _⟩)
    · exact already late.drained
    · cases other

theorem wakes_step (wakes : (own .forwardLoop history).getLast? = some ⟨.take, []⟩ → before.buf ≠ [] →
      before.notify = true ∨ ∃ id last, (own (.call id) history).getLast? = some last ∧ Pushes last)
    (fires : before.exec settings op = some (ans, after))
    (may : attends settings task (own task history) ⟨op, ans⟩)
    (waits : (own .forwardLoop (history ++ [entry task op ans])).getLast? = some ⟨.take, []⟩)
    (filled : after.buf ≠ []) :
    after.notify = true ∨ ∃ id last,
      (own (.call id) (history ++ [entry task op ans])).getLast? = some last ∧ Pushes last := by
  cases task with
  | forwardLoop =>
    rw [own_append, own_singleton_self, List.getLast?_concat] at waits
    obtain ⟨rfl, _⟩ := Act.mk.inj (Option.some.inj waits)
    exact absurd (exec_buf fires) filled
  | call id =>
    have loop : own Task.forwardLoop [entry (Task.call id) op ans] = [] :=
      own_singleton_of_ne (by simp) _
    rw [own_append, loop, List.append_nil] at waits
    by_cases pushes : Pushes (⟨op, ans⟩ : Act (sig K T))
    · exact .inr ⟨id, ⟨op, ans⟩, by simp, pushes⟩
    · have noTake : op ≠ .take := by
        rintro rfl
        exact may.1
      rw [buf_kept fires pushes noTake] at filled
      by_cases rings : op = .notifyOne
      · subst rings
        obtain ⟨_, rfl⟩ := Prod.mk.inj (Option.some.inj fires)
        exact .inl rfl
      · have kept : after.notify = before.notify := by
          cases op with
          | notifyOne => exact absurd rfl rings
          | notified => exact may.1.elim
          | isClosed | push | send | loadSourceClosed | storeSourceClosed | take | receive
          | dropReceiver =>
            simp only [Pipe.exec] at fires
            repeat' split at fires
            all_goals cases fires
            all_goals rfl
        rw [kept]
        rcases wakes waits filled with ringing | ⟨other, last, found, pushed⟩
        · exact .inl ringing
        · by_cases same : other = id
          · subst same
            exact absurd (may.2 ⟨last, found, pushed⟩) rings
          · have apart : own (Task.call other) [entry (Task.call id) op ans] = [] :=
              own_singleton_of_ne (by simpa using Ne.symm same) _
            exact .inr ⟨other, last, by rw [own_append, apart, List.append_nil, found], pushed⟩

theorem Closes.start : Closes settings ([] : List (Entry (sig K T) (Task ι))) Pipe.new where
  delivers := .start
  accounts := .start
  leftover := by
    intro done
    cases done
  wakes := by
    intro waits
    cases waits

theorem Closes.step (closes : Closes settings history before) (keeps : op ≠ .dropReceiver)
    (fires : before.exec settings op = some (ans, after))
    (may : attends settings task (own task history) ⟨op, ans⟩) :
    Closes settings (history ++ [entry task op ans]) after := by
  have delivers := closes.delivers
  have moves : Moves settings history before (entry task op ans) after := by
    cases task with
    | forwardLoop => exact moves_loop delivers.attached delivers.idle fires may.1
    | call id => exact moves_call delivers.attached delivers.idle keeps fires id may.1
  exact
    { delivers := delivers.step keeps fires may.1
      accounts := closes.accounts.step delivers.tidy fires may.1 moves
      leftover := leftover_step delivers.tidy closes.leftover fires may
      wakes := wakes_step closes.wakes fires may }

end ClosingSteps

theorem Run.closes (run : Run (opened settings rounds calls) history config)
    (kept : ∀ entry ∈ history, entry.act.op ≠ .dropReceiver) :
    Closes settings history config.state := by
  revert kept
  refine Run.invariant (opened_attends settings rounds calls)
    (fun history pipe => (∀ entry ∈ history, entry.act.op ≠ .dropReceiver) →
      Closes settings history pipe) (fun _ => .start) ?_ run
  intro history before task op ans after choice closes fires may kept
  refine (closes fun entry member => kept entry (List.mem_append_left _ member)).step ?_ fires may
  exact kept _ (List.mem_append_right _ (List.mem_singleton_self _))

/-- While there is a receiver, every send is accepted. -/
theorem Run.accepted (run : Run (opened settings rounds calls) history config)
    (kept : ∀ entry ∈ history, entry.act.op ≠ .dropReceiver) (task : Task ι) (item : T) :
    (⟨.send item, false⟩ : Act (sig K T)) ∉ own task history := by
  intro refused
  obtain ⟨pre, post, rfl⟩ := List.append_of_mem (mem_own.mp refused)
  rw [List.append_cons] at run
  obtain ⟨middle, first, _⟩ := run.split
  obtain ⟨before, _, earlier, fires⟩ := first.last
  have attached := (Run.delivers earlier fun entry member =>
    kept entry (List.mem_append_left _ member)).attached
  have answered : before.state.exec settings (.send item) = some (false, middle.state) := fires
  simp only [Pipe.exec, attached, Bool.false_eq_true, if_false] at answered
  split at answered
  · cases answered
  · cases answered

omit [DecidableEq K] in
theorem program_keeps (settings : Settings K T) {call : Call T} (attached : call ≠ .dropReceiver) :
    (call.program settings).Within {op | op ≠ Op.dropReceiver} := by
  cases call with
  | send item =>
    unfold Call.program send
    cases settings.policy with
    | block => exact .act nofun fun _ => trivial
    | dropOldest | coalesce =>
      refine .act nofun fun gone => ?_
      cases gone with
      | true => trivial
      | false =>
        refine .act nofun fun pushed => ?_
        cases pushed with
        | panicked => trivial
        | kept evicted => exact .act nofun fun _ => trivial
  | close => exact .act nofun fun _ => .act nofun fun _ => trivial
  | recv => exact .act nofun fun _ => trivial
  | dropReceiver => exact absurd rfl attached

/-- A receive is waiting, so that whatever arrives is received. -/
def Consuming (config : Config (machine settings) (Task ι) (Outcome T)) : Prop :=
  ∃ id next, config.procs (.call id) = .act .receive next

/-- An action that gives the loop something to do. -/
def stirs : Act (sig K T) → Bool
  | ⟨.push _, .kept _⟩ => true
  | ⟨.notifyOne, _⟩ => true
  | _ => false

omit [DecidableEq K] in
/-- How far a send can have come: it has not stirred the loop, it has pushed and is about
to wake it, or it has done both. -/
theorem send_shape (settings : Settings K T) {item : T} {acts : List (Act (sig K T))}
    {residual : Proc (sig K T) (Outcome T)} (path : Proc.Path (send settings item) acts residual) :
    (∀ act ∈ acts, stirs act = false) ∨
      (∃ gone next, acts = [⟨.isClosed, false⟩, ⟨.push item, .kept gone⟩] ∧
        residual = .act .notifyOne next) ∨
      ∃ gone, acts = [⟨.isClosed, false⟩, ⟨.push item, .kept gone⟩, ⟨.notifyOne, ()⟩] := by
  unfold send at path
  cases policy : settings.policy with
  | block =>
    rw [policy] at path
    left
    cases path with
    | stop => exact List.forall_mem_nil _
    | act rest =>
      cases rest
      exact List.forall_mem_singleton.mpr rfl
  | dropOldest | coalesce =>
    rw [policy] at path
    cases path with
    | stop => exact .inl (List.forall_mem_nil _)
    | @act _ _ _ _ closed rest =>
      cases closed with
      | true =>
        cases rest
        exact .inl (List.forall_mem_singleton.mpr rfl)
      | false =>
        cases rest with
        | stop => exact .inl (List.forall_mem_singleton.mpr rfl)
        | @act _ _ _ _ answer rest =>
          cases answer with
          | panicked =>
            cases rest
            exact .inl (List.forall_mem_cons.mpr ⟨rfl, List.forall_mem_singleton.mpr rfl⟩)
          | kept evicted =>
            cases rest with
            | stop => exact .inr (.inl ⟨evicted, _, rfl, rfl⟩)
            | act rest =>
              cases rest
              exact .inr (.inr ⟨evicted, rfl⟩)

omit [DecidableEq K] in
theorem send_sends {item : T} {acts : List (Act (sig K T))}
    (finishes : (send settings item).Completes acts (.sent true)) :
    ∃ act ∈ acts, sentItem settings act = some item := by
  unfold send at finishes
  cases policy : settings.policy with
  | block =>
    rw [policy] at finishes
    obtain ⟨accepted, rest, rfl, rfl, same⟩ := finishes
    obtain rfl : accepted = true := by simpa using same
    exact ⟨_, List.mem_singleton_self _, if_pos policy⟩
  | dropOldest | coalesce =>
    rw [policy] at finishes
    obtain ⟨closed, rest, rfl, goes⟩ := Proc.completes_perform_bind.mp finishes
    cases closed with
    | true =>
      obtain ⟨rfl, same⟩ := goes
      simp at same
    | false =>
      obtain ⟨answer, tail, rfl, told⟩ := Proc.completes_perform_bind.mp goes
      cases answer with
      | panicked =>
        obtain ⟨rfl, same⟩ := told
        cases same
      | kept gone => exact ⟨⟨.push item, .kept gone⟩, by simp, rfl⟩

omit [DecidableEq K] in
theorem loop_calm {task residual : Proc (sig K T) (Outcome T)} {acts : List (Act (sig K T))}
    (within : task.Within loopOps) (path : Proc.Path task acts residual) :
    ∀ act ∈ acts, stirs act = false := by
  rintro ⟨op, ans⟩ member
  have mine := within.mem path _ member
  cases op with
  | loadSourceClosed | take | send | notified => rfl
  | isClosed | push | notifyOne | storeSourceClosed | receive | dropReceiver => exact mine.elim

omit [DecidableEq K] in
theorem close_stirs {acts : List (Act (sig K T))} {residual : Proc (sig K T) (Outcome T)}
    (path : Proc.Path close acts residual) : acts.countP stirs ≤ 1 := by
  cases path with
  | stop => exact Nat.zero_le _
  | act rest =>
    cases rest with
    | stop => exact Nat.zero_le _
    | act rest =>
      cases rest
      exact Nat.le_refl _

omit [DecidableEq K] in
theorem program_rings (settings : Settings K T) {call : Call T} {acts : List (Act (sig K T))}
    {residual : Proc (sig K T) (Outcome T)} (path : Proc.Path (call.program settings) acts residual)
    {last : Act (sig K T)} (found : acts.getLast? = some last) (pushed : Pushes last) :
    ∃ next, residual = .act .notifyOne next := by
  have silent : (call.program settings).Within {op | ∀ item, op ≠ Op.push item} → False := by
    intro within
    obtain ⟨item, gone, rfl⟩ := pushed
    exact within.mem path _ (List.mem_of_getLast? found) item rfl
  cases call with
  | send item =>
    obtain ⟨given, gone, rfl⟩ := pushed
    rcases send_shape settings path with still | ⟨_, next, _, pending⟩ | ⟨_, rfl⟩
    · cases still _ (List.mem_of_getLast? found)
    · exact ⟨next, pending⟩
    · cases found
  | close => exact (silent (.act nofun fun _ => .act nofun fun _ => trivial)).elim
  | recv => exact (silent (.act nofun fun _ => trivial)).elim
  | dropReceiver => exact (silent (.act nofun fun _ => trivial)).elim

omit [DecidableEq K] in
/-- A call gives the loop at most an item and a permit. -/
theorem program_stirs (settings : Settings K T) {call : Call T} {acts : List (Act (sig K T))}
    {residual : Proc (sig K T) (Outcome T)} (path : Proc.Path (call.program settings) acts residual) :
    acts.countP stirs ≤ 2 := by
  have none_of : (∀ act ∈ acts, stirs act = false) → acts.countP stirs ≤ 2 := by
    intro still
    rw [List.countP_eq_zero.mpr (by simpa using still)]
    exact Nat.zero_le _
  have silent : (call.program settings).Within {op : Op T | ∀ ans : op.Ans K, stirs ⟨op, ans⟩ = false} →
      acts.countP stirs ≤ 2 :=
    fun within => none_of fun act member => within.mem path act member act.ans
  cases call with
  | send item =>
    rcases send_shape settings path with still | ⟨_, _, rfl, _⟩ | ⟨_, rfl⟩
    · exact none_of still
    · exact Nat.le_succ _
    · exact Nat.le_refl _
  | close => exact (close_stirs path).trans (Nat.le_succ _)
  | recv => exact silent (.act (fun _ => rfl) fun _ => trivial)
  | dropReceiver => exact silent (.act (fun _ => rfl) fun _ => trivial)

/-- What the loop still has to do: a permit to take, a buffer to drain. -/
def pendingWork (pipe : Pipe K T) : Nat :=
  pipe.notify.toNat + (!pipe.buf.isEmpty).toNat

omit [DecidableEq ι] in
theorem stirs_step {before after : Pipe K T} {op : Op T} {ans : op.Ans K}
    (fires : before.exec settings op = some (ans, after)) :
    (if busy (⟨op, ans⟩ : Act (sig K T)) then 1 else 0) + pendingWork after ≤
      pendingWork before + if stirs (⟨op, ans⟩ : Act (sig K T)) then 1 else 0 := by
  cases op with
  | push item =>
    simp only [Pipe.exec] at fires
    split at fires
    · obtain ⟨rfl, rfl⟩ := Prod.mk.inj (Option.some.inj fires)
      exact Nat.le_of_eq (Nat.zero_add _)
    · obtain ⟨rfl, rfl⟩ := Prod.mk.inj (Option.some.inj fires)
      have one := (!(pushItem settings item before.buf).2.isEmpty).toNat_le
      simp only [pendingWork, busy, stirs, Bool.false_eq_true, if_false, if_true]
      omega
  | notifyOne =>
    obtain ⟨rfl, rfl⟩ := Prod.mk.inj (Option.some.inj fires)
    simp only [pendingWork, busy, stirs, Bool.false_eq_true, if_false, if_true, Bool.toNat_true]
    omega
  | take =>
    obtain ⟨rfl, rfl⟩ := Prod.mk.inj (Option.some.inj fires)
    cases filled : before.buf.isEmpty with
    | true => simp [pendingWork, busy, stirs, filled]
    | false => simp [pendingWork, busy, stirs, filled, Nat.add_comm]
  | notified =>
    simp only [Pipe.exec] at fires
    split at fires
    · rename_i permit
      obtain ⟨rfl, rfl⟩ := Prod.mk.inj (Option.some.inj fires)
      simp [pendingWork, busy, stirs, permit]
    · cases fires
  | isClosed | send | loadSourceClosed | storeSourceClosed | receive =>
    simp only [Pipe.exec] at fires
    repeat' split at fires
    all_goals cases fires
    all_goals exact Nat.le_of_eq (Nat.zero_add _)
  | dropReceiver =>
    obtain ⟨rfl, rfl⟩ := Prod.mk.inj (Option.some.inj fires)
    exact Nat.le_of_eq (Nat.zero_add _)

instance [Fintype ι] : Fintype (Task ι) :=
  Fintype.ofEquiv (Option ι)
    { toFun
        | none => .forwardLoop
        | some id => .call id
      invFun
        | .forwardLoop => none
        | .call id => some id
      left_inv := fun task => by cases task <;> rfl
      right_inv := fun task => by cases task <;> rfl }

section Rest

variable (run : Run (opened settings rounds calls) history config)
  (attached : ∀ id, calls id ≠ .dropReceiver)

include run attached

/-- A receiver that no call drops stays. -/
theorem Run.keeps : ∀ entry ∈ history, entry.act.op ≠ .dropReceiver := by
  rintro ⟨task, op, ans⟩ member drops
  obtain rfl : op = .dropReceiver := drops
  cases task with
  | forwardLoop =>
    obtain ⟨pre, post, rfl⟩ := List.append_of_mem member
    exact (run.justified (opened_justifies settings rounds calls .forwardLoop) : Forwards _ _)
  | call id =>
    have within : ((calls id).program settings).Within {op | op ≠ Op.dropReceiver} :=
      program_keeps settings (attached id)
    exact within.mem (run.path (.call id)) _ (mem_own.mpr member) rfl

omit attached in
/-- A sender that has pushed is about to wake the loop. -/
theorem Run.rings {id : ι} {last : Act (sig K T)}
    (found : (own (.call id) history).getLast? = some last) (pushed : Pushes last) :
    ∃ next, config.procs (.call id) = .act .notifyOne next :=
  program_rings settings (run.path (.call id)) found pushed

/-- Where a channel comes to rest: nothing is on its way to the receiver, and the buffer
is empty unless the loop has returned. -/
theorem Run.rested (uncut : config.procs .forwardLoop ≠ .done .forwarding) (rest : AtRest config)
    (consuming : Consuming config) :
    inFlight history config.state = [] ∧
      (phase (own .forwardLoop history) = .drained ∨ config.state.buf = []) := by
  have kept := Run.keeps run attached
  have closes := Run.closes run kept
  have received : config.state.downstream = [] := by
    obtain ⟨id, next, pending⟩ := consuming
    have waits := rest.waits pending ()
    simp only [Pipe.exec] at waits
    split at waits
    · assumption
    · cases waits
  unfold inFlight
  rw [received, List.nil_append]
  cases loop : config.procs .forwardLoop with
  | done outcome =>
    have finishes := run.completes loop
    rcases @forwardLoop_returns K T rounds [] _ _ rfl rfl (Run.accepted run kept .forwardLoop)
        finishes with
      ⟨_, returned, emptied⟩ | ⟨rfl, _⟩
    · exact ⟨by simpa using emptied, .inl (by simpa using returned)⟩
    · exact absurd loop uncut
  | act op next =>
    have waits := rest.waits loop ()
    have within := (forwardLoop_within rounds).residual (run.path .forwardLoop)
    rw [loop] at within
    cases op with
    | loadSourceClosed | take => cases waits
    | send item =>
      simp only [Pipe.exec, closes.delivers.attached, received, Bool.false_eq_true, if_false,
        List.length_nil, settings.positive, if_true] at waits
      cases waits
    | notified =>
      have loops : Loops (own .forwardLoop history) ⟨.notified, ()⟩ :=
        run.pending_justified (forwardLoop_loops rounds rfl rfl) loop ()
      have silent : config.state.notify = false := by
        simp only [Pipe.exec] at waits
        split at waits
        · cases waits
        · simpa using ‹¬ config.state.notify = true›
      obtain ⟨emptied, last⟩ := waiting_notified loops
      refine ⟨emptied, .inr ?_⟩
      by_contra filled
      rcases closes.wakes last filled with ringing | ⟨id, act, found, pushed⟩
      · rw [silent] at ringing
        cases ringing
      · obtain ⟨next, rings⟩ := Run.rings run found pushed
        cases rest.waits rings ()
    | isClosed | push | notifyOne | storeSourceClosed | receive | dropReceiver => exact within.1.elim

omit attached in
/-- The loop is busy no more often than the calls gave it a permit or an item. -/
theorem Run.busy_le : history.countP (fun entry => busy entry.act) + pendingWork config.state ≤
    history.countP (fun entry => stirs entry.act) := by
  induction run with
  | start => exact Nat.le_refl 0
  | @step history config task op next ans state run pending choice fires ih =>
    have moved := stirs_step fires
    rw [List.countP_append, List.countP_append, List.countP_singleton, List.countP_singleton]
    dsimp only at ih ⊢
    omega

omit attached in
/-- With two rounds for each task, the loop is never cut off. -/
theorem Run.uncut [Fintype ι] (accepted : ∀ item, (⟨.send item, false⟩ : Act (sig K T)) ∉
      own .forwardLoop history) (enough : 2 * Fintype.card (Task ι) < rounds) :
    config.procs .forwardLoop ≠ .done .forwarding := by
  intro cut
  have finishes := run.completes cut
  rcases @forwardLoop_returns K T rounds [] _ _ rfl rfl accepted finishes with ⟨other, _⟩ | ⟨_, used⟩
  · cases other
  · have mine : (own .forwardLoop history).countP busy ≤
        history.countP (fun entry => busy entry.act) := by
      rw [countP_own]
      exact Finset.single_le_sum (f := fun task => (own task history).countP busy)
        (fun _ _ => Nat.zero_le _) (Finset.mem_univ Task.forwardLoop)
    have given : history.countP (fun entry => stirs entry.act) ≤ 2 * Fintype.card (Task ι) := by
      rw [countP_own, Nat.mul_comm, ← smul_eq_mul, ← Finset.card_univ]
      apply Finset.sum_le_card_nsmul
      intro task _
      cases task with
      | forwardLoop =>
        have calm : ∀ act ∈ own Task.forwardLoop history, stirs act = false :=
          loop_calm (forwardLoop_within rounds) (run.path .forwardLoop)
        rw [List.countP_eq_zero.mpr (by simpa using calm)]
        exact Nat.zero_le _
      | call id => exact program_stirs settings (run.path (.call id))
    have balance := Run.busy_le run
    omega

/-- At rest, the buffer holds exactly what was pushed too late. -/
theorem Run.leftover (uncut : config.procs .forwardLoop ≠ .done .forwarding) (rest : AtRest config)
    (consuming : Consuming config) : config.state.buf = [] ↔ ¬ LatePush history := by
  have closes := Run.closes run (Run.keeps run attached)
  obtain ⟨_, returned | empty⟩ := Run.rested run attached uncut rest consuming
  · have left := closes.leftover returned
    constructor
    · intro empty late
      exact left.mpr late empty
    · intro onTime
      by_contra filled
      exact onTime (left.mp filled)
  · refine iff_of_true empty fun late => ?_
    exact (closes.leftover late.drained).mpr late empty

omit attached in
/-- A send that returned true put its item on the channel. -/
theorem Run.sent_of_returned {id : ι} {item : T} (asked : calls id = .send item)
    (returned : config.procs (.call id) = .done (.sent true)) :
    ∃ entry ∈ history, entry.task = .call id ∧ sentItem settings entry.act = some item := by
  have finishes := run.completes returned
  have program : (opened settings rounds calls).procs (.call id) = send settings item := by
    simp [opened, asked, Call.program]
  rw [program] at finishes
  obtain ⟨act, performed, sends⟩ := send_sends finishes
  exact ⟨⟨.call id, act⟩, mem_own.mp performed, rfl, sends⟩

/-- Closing loses nothing, except what is pushed after the last drain. In every state,
what was sent is received, on its way, replaced or evicted; finitely many calls come to
rest, and at rest nothing is on its way to the receiver any more: what was sent is then
received, replaced or evicted exactly if no item was pushed late. -/
theorem close_loses_nothing_iff :
    (∀ id item, calls id = .send item → config.procs (.call id) = .done (.sent true) →
        ∃ entry ∈ history, entry.task = .call id ∧ sentItem settings entry.act = some item) ∧
      (sent settings history).Perm (received history ++ inFlight history config.state ++
        buffered config.state ++ replaced settings history ++ evicted history) ∧
      ([Fintype ι] → ∃ more final, Run config more final ∧ AtRest final ∧
        (2 * Fintype.card (Task ι) < rounds → final.procs .forwardLoop ≠ .done .forwarding)) ∧
      (config.procs .forwardLoop ≠ .done .forwarding → AtRest config → Consuming config →
        ((sent settings history).Perm (received history ++ replaced settings history ++ evicted history) ↔
          ¬ LatePush history)) := by
  have closes := Run.closes run (Run.keeps run attached)
  refine ⟨fun id item => Run.sent_of_returned run, closes.accounts.items, ?_, ?_⟩
  · intro finite
    obtain ⟨more, final, further, rest⟩ := Run.comes_to_rest config
    have whole := run.append further
    have accepted := Run.accepted whole (Run.keeps whole attached) .forwardLoop
    exact ⟨more, final, further, rest, Run.uncut whole accepted⟩
  · intro uncut rest consuming
    rw [← Run.leftover run attached uncut rest consuming]
    obtain ⟨arrived, _⟩ := Run.rested run attached uncut rest consuming
    have items := closes.accounts.items
    rw [line, arrived, List.append_nil] at items
    constructor
    · intro complete
      have lengths := complete.symm.trans items
      have same := lengths.length_eq
      simp only [List.length_append] at same
      have none_left : (buffered config.state).length = 0 := by omega
      simpa [buffered] using none_left
    · intro empty
      simpa [buffered, empty] using items

end Rest

end Runs

/-- A channel with room for one item. -/
def slim : Settings Nat Nat := policyChannel 1 .dropOldest id true

def slimCalls : Fin 3 → Call Nat
  | 0 => .send 7
  | 1 => .close
  | 2 => .recv

/-- A send that passes its check while the loop drains the buffer for the last time is
told that its item was accepted, and the item stays in the buffer. -/
theorem close_strands_item : ∃ history config, Run (opened slim 9 slimCalls) history config ∧
    AtRest config ∧ Consuming config ∧ config.procs .forwardLoop ≠ .done .forwarding ∧
    config.procs (.call 0) = .done (.sent true) ∧
    ¬ (sent slim history).Perm (received history ++ replaced slim history ++ evicted history) := by
  obtain ⟨history, config, run, rest, waits, forwarded, told, lost⟩ : ∃ history config,
      Run (opened slim 9 slimCalls) history config ∧ AtRest config ∧
      (config.procs (.call 2)).pending? = some Op.receive ∧
      (config.procs .forwardLoop).result? = some .forwarded ∧
      (config.procs (.call 0)).result? = some (.sent true) ∧
      ¬ (sent slim history).Perm (received history ++ replaced slim history ++ evicted history) :=
    Run.exists_of_replay (List.flatten [[(.call 0, ())], List.replicate 2 (.call 1, ()),
      List.replicate 2 (.forwardLoop, ()), List.replicate 2 (.call 0, ())]) (by decide +kernel)
  refine ⟨history, config, run, rest, ⟨2, Proc.exists_act waits⟩, ?_, Proc.eq_done told, lost⟩
  rw [Proc.eq_done forwarded]
  simp

def slimReads : Fin 4 → Call Nat
  | 0 => .send 7
  | 1 => .close
  | 2 => .recv
  | 3 => .recv

/-- An item that is pushed before the last drain is forwarded. -/
theorem close_loses_nothing_iff_in_time : ∃ history config,
    Run (opened slim 11 slimReads) history config ∧ received history = [7] ∧ ¬ LatePush history := by
  obtain ⟨history, config, run, rest, waits, forwarded, got, complete⟩ : ∃ history config,
      Run (opened slim 11 slimReads) history config ∧ AtRest config ∧
      (config.procs (.call 3)).pending? = some Op.receive ∧
      (config.procs .forwardLoop).result? = some .forwarded ∧ received history = [7] ∧
      (sent slim history).Perm (received history ++ replaced slim history ++ evicted history) :=
    Run.exists_of_replay (List.flatten [List.replicate 3 (.call 0, ()), List.replicate 2 (.call 1, ()),
      List.replicate 3 (.forwardLoop, ()), [(.call 2, ())]]) (by decide +kernel)
  have attached : ∀ id, slimReads id ≠ .dropReceiver := by decide
  have uncut : config.procs .forwardLoop ≠ .done .forwarding := by
    rw [Proc.eq_done forwarded]
    simp
  have exactly := (close_loses_nothing_iff run attached).2.2.2 uncut rest ⟨3, Proc.exists_act waits⟩
  exact ⟨history, config, run, got, exactly.mp complete⟩

end LongTrader.Overflow
