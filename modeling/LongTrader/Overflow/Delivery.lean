import LongTrader.Overflow.Channel
import Mathlib.Data.List.Nodup

/-! What a policy channel delivers, whatever the order of sends, forwarding and receives:
every item is on one line from the buffer to the consumer. -/

namespace LongTrader.Overflow

open Interleave

section Line

variable {K T ι : Type} [DecidableEq ι]

/-- The items that the forward loop has taken and not yet sent, after one more action. -/
def carriedAfter (carried : List T) : Act (sig K T) → List T
  | ⟨.take, items⟩ => carried ++ items.map Prod.snd
  | ⟨.send _, true⟩ => carried.tail
  | ⟨.send _, false⟩ => []
  | _ => carried

def carried (acts : List (Act (sig K T))) : List T := acts.foldl carriedAfter []

/-- The item that an action sends. -/
def sentItem (settings : Settings K T) : Act (sig K T) → Option T
  | ⟨.send item, true⟩ => if settings.policy = .block then some item else none
  | ⟨.push item, .kept _⟩ => some item
  | _ => none

def receivedItem : Act (sig K T) → Option T
  | ⟨.receive, item⟩ => some item
  | _ => none

/-- The slots that an action evicts from a full buffer. -/
def evictedBy : Act (sig K T) → List (K × T)
  | ⟨.push _, .kept evicted⟩ => evicted
  | _ => []

/-- The items in the order in which their sends took effect. -/
def sent (settings : Settings K T) (history : List (Entry (sig K T) (Task ι))) : List T :=
  shown (sentItem settings) history

def received (history : List (Entry (sig K T) (Task ι))) : List T := shown receivedItem history

/-- What has left the buffer and not reached the consumer. -/
def inFlight (history : List (Entry (sig K T) (Task ι))) (pipe : Pipe K T) : List T :=
  pipe.downstream ++ carried (own .forwardLoop history)

def buffered (pipe : Pipe K T) : List T := pipe.buf.map Prod.snd

/-- Everything that is received, in flight or buffered, the first to arrive first. -/
def line (history : List (Entry (sig K T) (Task ι))) (pipe : Pipe K T) : List T :=
  received history ++ inFlight history pipe ++ buffered pipe

omit [DecidableEq ι] in
@[simp] theorem carried_nil : carried ([] : List (Act (sig K T))) = [] := rfl

@[simp] theorem carried_append (first second : List (Act (sig K T))) :
    carried (first ++ second) = second.foldl carriedAfter (carried first) := by
  simp [carried]

/-- What the forward loop does next, after what it has done. -/
def Forwards (past : List (Act (sig K T))) (act : Act (sig K T)) : Prop :=
  match act.op with
  | .send item => (carried past).head? = some item
  | .take => carried past = []
  | .loadSourceClosed | .notified => True
  | _ => False

/-- What calls on the ends of a channel do. -/
def callOps (settings : Settings K T) : Set (Op T)
  | .send _ => settings.policy = .block
  | .push _ => settings.policy ≠ .block
  | .isClosed | .notifyOne | .storeSourceClosed | .receive | .dropReceiver => True
  | _ => False

theorem sendAll_justifies {items : List (K × T)} {past : List (Act (sig K T))}
    (held : carried past = items.map Prod.snd) : (sendAll items).Justifies Forwards past := by
  induction items generalizing past with
  | nil => trivial
  | cons slot rest ih =>
    refine .act (fun accepted => ?_) fun accepted => ?_
    · simp [Forwards, held]
    · cases accepted with
      | true => exact ih (by simp [carriedAfter, held])
      | false => trivial

theorem sendAll_completes {items : List (K × T)} {past acts : List (Act (sig K T))} {accepted : Bool}
    (held : carried past = items.map Prod.snd) (finishes : (sendAll items).Completes acts accepted) :
    carried (past ++ acts) = [] := by
  induction items generalizing past acts with
  | nil =>
    obtain ⟨rfl, rfl⟩ := finishes
    simpa using held
  | cons slot rest ih =>
    obtain ⟨answer, later, rfl, tail⟩ := Proc.completes_perform_bind.mp finishes
    rw [List.append_cons]
    cases answer with
    | true => exact ih (by simp [carriedAfter, held]) tail
    | false =>
      obtain ⟨rfl, rfl⟩ := tail
      simp [carriedAfter]

theorem forwardLoop_justifies (rounds : Nat) {past : List (Act (sig K T))} (idle : carried past = []) :
    (forwardLoop rounds).Justifies Forwards past := by
  induction rounds generalizing past with
  | zero => trivial
  | succ rounds ih =>
    refine .act (fun closed => trivial) fun closed => ?_
    have loaded : carried (past ++ [⟨.loadSourceClosed, closed⟩]) = [] := by simp [carriedAfter, idle]
    have taken (items : List (K × T)) : carried (past ++ [⟨.loadSourceClosed, closed⟩] ++
        [⟨.take, items⟩]) = items.map Prod.snd := by
      simp [carriedAfter, idle]
    cases closed with
    | true =>
      refine .act (fun _ => loaded) fun drained => ?_
      exact .bind (sendAll_justifies (taken drained)) fun acts accepted finishes => trivial
    | false =>
      refine .act (fun _ => loaded) fun items => ?_
      cases items with
      | nil =>
        refine .act (fun _ => trivial) fun _ => ih ?_
        simp [carriedAfter, idle]
      | cons slot rest =>
        refine .bind (sendAll_justifies (taken _)) fun acts accepted finishes => ?_
        have emptied := sendAll_completes (taken _) finishes
        cases accepted with
        | true => exact ih emptied
        | false => trivial

theorem program_within (settings : Settings K T) (call : Call T) :
    (call.program settings).Within (callOps settings) := by
  cases call with
  | send item =>
    unfold Call.program send
    cases policy : settings.policy with
    | block => exact .act policy fun _ => trivial
    | dropOldest | coalesce =>
      refine .act trivial fun gone => ?_
      cases gone with
      | true => trivial
      | false =>
        have buffers : settings.policy ≠ .block := by simp [policy]
        refine .act buffers fun pushed => ?_
        cases pushed with
        | panicked => trivial
        | kept evicted => exact .act trivial fun _ => trivial
  | close => exact .act trivial fun _ => .act trivial fun _ => trivial
  | recv => exact .act trivial fun _ => trivial
  | dropReceiver => exact .act trivial fun _ => trivial

/-- What each task on a channel may do after what it has done. -/
def performs (settings : Settings K T) : Task ι → List (Act (sig K T)) → Act (sig K T) → Prop
  | .forwardLoop, past, act => Forwards past act
  | .call _, _, act => act.op ∈ callOps settings

omit [DecidableEq ι] in
theorem opened_justifies [DecidableEq K] (settings : Settings K T) (rounds : Nat) (calls : ι → Call T)
    (task : Task ι) : ((opened settings rounds calls).procs task).Justifies (performs settings task) [] := by
  cases task with
  | forwardLoop => exact forwardLoop_justifies rounds rfl
  | call id => exact (program_within settings (calls id)).justifies fun _ _ within => within

end Line

section Buffer

variable {K T : Type} [DecidableEq K] {settings : Settings K T} {buf : List (K × T)}

theorem replace_split {key : K} (present : ∃ slot ∈ buf, slot.1 = key) (item : T) :
    ∃ front old back, buf = front ++ (key, old) :: back ∧ (∀ slot ∈ front, slot.1 ≠ key) ∧
      replace key item buf = front ++ (key, item) :: back := by
  induction buf with
  | nil => simp at present
  | cons slot rest ih =>
    by_cases here : slot.1 = key
    · refine ⟨[], slot.2, rest, ?_, by simp, ?_⟩
      · rw [← here]
        rfl
      · simp [replace, here]
    · obtain ⟨front, old, back, split, others, replaced⟩ := ih (by simpa [here] using present)
      refine ⟨slot :: front, old, back, by rw [split]; rfl, ?_, ?_⟩
      · simpa [here] using others
      · simp [replace, here, replaced]

omit [DecidableEq K] in
theorem popExcess_snoc (fits : buf.length ≤ settings.cap) (slot : K × T) :
    (buf.length < settings.cap ∧ popExcess settings.cap (buf ++ [slot]) = ([], buf ++ [slot])) ∨
      ∃ oldest rest, buf = oldest :: rest ∧
        popExcess settings.cap (buf ++ [slot]) = ([oldest], rest ++ [slot]) := by
  by_cases room : buf.length < settings.cap
  · have none_over : (buf ++ [slot]).length - settings.cap = 0 := by
      rw [List.length_append, List.length_singleton]
      omega
    left
    refine ⟨room, ?_⟩
    simp only [popExcess, none_over]
    rfl
  · have one_over : (buf ++ [slot]).length - settings.cap = 1 := by
      rw [List.length_append, List.length_singleton]
      omega
    have positive := settings.positive
    cases buf with
    | nil => simp at room; omega
    | cons oldest rest =>
      right
      refine ⟨oldest, rest, rfl, ?_⟩
      simp only [popExcess, one_over]
      rfl

/-- What a send does to a buffer: it takes the place of its key, joins the queue, or
joins it in place of the oldest. -/
theorem pushItem_cases (fits : buf.length ≤ settings.cap) (item : T) :
    (settings.policy = .coalesce ∧ (∃ slot ∈ buf, slot.1 = settings.keyOf item) ∧
        pushItem settings item buf = ([], replace (settings.keyOf item) item buf)) ∨
      (settings.policy = .coalesce → ∀ slot ∈ buf, slot.1 ≠ settings.keyOf item) ∧
        ((buf.length < settings.cap ∧
            pushItem settings item buf = ([], buf ++ [(settings.keyOf item, item)])) ∨
          ∃ oldest rest, buf = oldest :: rest ∧
            pushItem settings item buf = ([oldest], rest ++ [(settings.keyOf item, item)])) := by
  by_cases stale : settings.policy = .coalesce ∧ ∃ slot ∈ buf, slot.1 = settings.keyOf item
  · obtain ⟨coalesces, present⟩ := stale
    left
    refine ⟨coalesces, present, ?_⟩
    simp [pushItem, coalesces, present]
  · right
    have appended : pushItem settings item buf =
        popExcess settings.cap (buf ++ [(settings.keyOf item, item)]) := by
      unfold pushItem
      dsimp only
      split
      · rename_i coalesces
        rw [if_neg]
        simpa [coalesces] using stale
      · rfl
    rw [appended]
    refine ⟨?_, popExcess_snoc fits _⟩
    intro coalesces slot member same
    exact stale ⟨coalesces, slot, member, same⟩

/-- The buffers that sends leave behind. -/
structure Tidy (settings : Settings K T) (buf : List (K × T)) : Prop where
  keyed : ∀ slot ∈ buf, slot.1 = settings.keyOf slot.2
  fits : buf.length ≤ settings.cap
  single : settings.policy = .coalesce → (buf.map Prod.fst).Nodup

omit [DecidableEq K] in
theorem Tidy.empty : Tidy settings [] := ⟨by simp, by simp, by simp⟩

theorem Tidy.pushItem (tidy : Tidy settings buf) (item : T) :
    Tidy settings (pushItem settings item buf).2 := by
  have small := tidy.fits
  rcases pushItem_cases tidy.fits item with ⟨coalesces, present, pushed⟩ | ⟨absent, joined⟩
  · obtain ⟨front, old, back, rfl, -, replaced⟩ := replace_split present item
    rw [pushed, replaced]
    refine ⟨?_, by simpa using small, by simpa using tidy.single⟩
    intro slot member
    rcases List.mem_append.mp member with old | member
    · exact tidy.keyed slot (List.mem_append_left _ old)
    · rcases List.mem_cons.mp member with rfl | old
      · rfl
      · exact tidy.keyed slot (List.mem_append_right _ (List.mem_cons_of_mem _ old))
  · -- What stays of the queue keeps its keys and is not of the key that joins it.
    have joins : ∀ rest : List (K × T), rest.Sublist buf → rest.length < settings.cap →
        Tidy settings (rest ++ [(settings.keyOf item, item)]) := by
      intro rest kept room
      refine ⟨?_, by simpa using Nat.succ_le_of_lt room, fun coalesces => ?_⟩
      · intro slot member
        rcases List.mem_append.mp member with old | new
        · exact tidy.keyed slot (kept.subset old)
        · rw [List.mem_singleton.mp new]
      · rw [List.map_append, List.map_singleton, ← List.concat_eq_append, List.nodup_concat]
        refine ⟨?_, (tidy.single coalesces).sublist (kept.map _)⟩
        intro again
        obtain ⟨slot, member, same⟩ := List.mem_map.mp again
        exact absent coalesces slot (kept.subset member) same
    rcases joined with ⟨room, pushed⟩ | ⟨oldest, rest, rfl, pushed⟩
    · rw [pushed]
      exact joins buf (List.Sublist.refl _) room
    · rw [pushed]
      exact joins rest (List.sublist_cons_self ..) (Nat.lt_of_succ_le small)

/-- Nothing but an evicted item is missing from a queue without coalescing. -/
theorem pushItem_sublist (fits : buf.length ≤ settings.cap) (keeps : settings.policy ≠ .coalesce)
    (item : T) : ((pushItem settings item buf).2.map Prod.snd).Sublist (buf.map Prod.snd ++ [item]) := by
  rcases pushItem_cases fits item with ⟨coalesces, _⟩ | ⟨-, ⟨-, pushed⟩ | ⟨oldest, rest, rfl, pushed⟩⟩
  · exact absurd coalesces keeps
  · simp [pushed]
  · simp [pushed]

/-- The items of one key. -/
def ofKey (settings : Settings K T) (key : K) (items : List T) : List T :=
  items.filter (fun item => settings.keyOf item = key)

@[simp] theorem ofKey_nil (key : K) : ofKey settings key [] = [] := rfl

@[simp] theorem ofKey_append (key : K) (first second : List T) :
    ofKey settings key (first ++ second) = ofKey settings key first ++ ofKey settings key second :=
  List.filter_append ..

theorem ofKey_cons_of_eq {key : K} {item : T} (same : settings.keyOf item = key) (rest : List T) :
    ofKey settings key (item :: rest) = item :: ofKey settings key rest :=
  List.filter_cons_of_pos (by simp [same])

theorem ofKey_cons_of_ne {key : K} {item : T} (other : settings.keyOf item ≠ key) (rest : List T) :
    ofKey settings key (item :: rest) = ofKey settings key rest :=
  List.filter_cons_of_neg (by simp [other])

theorem ofKey_absent {key : K} {slots : List (K × T)}
    (keyed : ∀ slot ∈ slots, slot.1 = settings.keyOf slot.2) (absent : ∀ slot ∈ slots, slot.1 ≠ key) :
    ofKey settings key (slots.map Prod.snd) = [] := by
  simp only [ofKey, List.filter_eq_nil_iff, decide_eq_true_eq]
  intro item member same
  obtain ⟨slot, stored, rfl⟩ := List.mem_map.mp member
  exact absent slot stored ((keyed slot stored).trans same)

section Coalesce

variable (coalesces : settings.policy = .coalesce) (tidy : Tidy settings buf) (item : T)

include coalesces tidy

theorem ofKey_pushItem_own :
    ofKey settings (settings.keyOf item) ((pushItem settings item buf).2.map Prod.snd) = [item] := by
  rcases pushItem_cases tidy.fits item with ⟨-, present, pushed⟩ | ⟨absent, joined⟩
  · obtain ⟨front, old, back, rfl, before, replaced⟩ := replace_split present item
    have after : ∀ slot ∈ back, slot.1 ≠ settings.keyOf item := by
      have single := tidy.single coalesces
      simp only [List.map_append, List.map_cons, List.nodup_append, List.nodup_cons] at single
      intro slot member same
      exact single.2.1.1 (List.mem_map.mpr ⟨slot, member, same⟩)
    have left := ofKey_absent
      (fun slot (member : slot ∈ front) => tidy.keyed slot (by simp [member])) before
    have right := ofKey_absent
      (fun slot (member : slot ∈ back) => tidy.keyed slot (by simp [member])) after
    rw [pushed, replaced, List.map_append, ofKey_append, left, List.map_cons,
      ofKey_cons_of_eq rfl, right, List.nil_append]
  · have fresh := ofKey_absent tidy.keyed (absent coalesces)
    rcases joined with ⟨room, pushed⟩ | ⟨oldest, rest, rfl, pushed⟩
    · rw [pushed, List.map_append, ofKey_append, fresh]
      simp [ofKey]
    · have gone := ofKey_absent
        (fun slot (member : slot ∈ rest) => tidy.keyed slot (by simp [member]))
        (fun slot member => absent coalesces slot (by simp [member]))
      rw [pushed, List.map_append, ofKey_append, gone]
      simp [ofKey]

theorem ofKey_pushItem_other {key : K} (other : settings.keyOf item ≠ key) :
    ofKey settings key ((pushItem settings item buf).2.map Prod.snd) =
        ofKey settings key (buf.map Prod.snd) ∨
      ∃ old, (key, old) ∈ (pushItem settings item buf).1 ∧
        ofKey settings key (buf.map Prod.snd) = [old] ∧
        ofKey settings key ((pushItem settings item buf).2.map Prod.snd) = [] := by
  rcases pushItem_cases tidy.fits item with
    ⟨-, present, pushed⟩ | ⟨absent, ⟨-, pushed⟩ | ⟨oldest, rest, rfl, pushed⟩⟩
  · obtain ⟨front, old, back, rfl, -, replaced⟩ := replace_split present item
    have stale : settings.keyOf old ≠ key := by
      rw [← tidy.keyed (settings.keyOf item, old) (by simp)]
      exact other
    left
    rw [pushed, replaced]
    simp [ofKey_cons_of_ne other, ofKey_cons_of_ne stale]
  · left
    rw [pushed]
    simp [ofKey, other]
  · rw [pushed]
    by_cases mine : oldest.1 = key
    · right
      subst mine
      have rare : ∀ slot ∈ rest, slot.1 ≠ oldest.1 := by
        have single := tidy.single coalesces
        rw [List.map_cons, List.nodup_cons] at single
        intro slot member same
        exact single.1 (List.mem_map.mpr ⟨slot, member, same⟩)
      have gone := ofKey_absent
        (fun slot (member : slot ∈ rest) => tidy.keyed slot (by simp [member])) rare
      have same := tidy.keyed oldest (by simp)
      refine ⟨oldest.2, by simp, ?_, ?_⟩
      · rw [List.map_cons, ofKey_cons_of_eq same.symm, gone]
      · rw [List.map_append, ofKey_append, gone]
        simp [ofKey, other]
    · left
      have different : settings.keyOf oldest.2 ≠ key := by
        rw [← tidy.keyed oldest (by simp)]
        exact mine
      simp [ofKey_cons_of_ne other, ofKey_cons_of_ne different]

end Coalesce

end Buffer

section Steps

variable {K T ι : Type} [DecidableEq K] [DecidableEq ι] {settings : Settings K T}
  {history : List (Entry (sig K T) (Task ι))} {before after : Pipe K T} {task : Task ι} {op : Op T}
  {ans : op.Ans K}

/-- How one action moves the items of a channel. -/
inductive Moves (settings : Settings K T) (history : List (Entry (sig K T) (Task ι)))
    (before : Pipe K T) (next : Entry (sig K T) (Task ι)) (after : Pipe K T) : Prop where
  | quiet (none : sentItem settings next.act = none)
      (same : line (history ++ [next]) after = line history before)
      (buf : after.buf = before.buf ∨ after.buf = [])
  | direct (item : T) (blocks : settings.policy = .block)
      (sends : sentItem settings next.act = some item)
      (joins : line (history ++ [next]) after = line history before ++ [item])
      (buf : after.buf = before.buf)
  | push (item : T) (buffers : settings.policy ≠ .block)
      (sends : sentItem settings next.act = some item)
      (evicts : evictedBy next.act = (pushItem settings item before.buf).1)
      (front : List T) (old : line history before = front ++ buffered before)
      (new : line (history ++ [next]) after = front ++ buffered after)
      (buf : after.buf = (pushItem settings item before.buf).2)

omit [DecidableEq K] in
theorem line_loop (pipe : Pipe K T) (op : Op T) (ans : op.Ans K) :
    line (history ++ [entry .forwardLoop op ans]) pipe =
      received history ++ (receivedItem ⟨op, ans⟩).toList ++
        (pipe.downstream ++ carriedAfter (carried (own .forwardLoop history)) ⟨op, ans⟩) ++
        buffered pipe := by
  cases shows : receivedItem (⟨op, ans⟩ : Act (sig K T)) with
  | none => simp [line, inFlight, received, shown, shows]
  | some item => simp [line, inFlight, received, shown, shows]

omit [DecidableEq K] in
theorem line_call (pipe : Pipe K T) (id : ι) (op : Op T) (ans : op.Ans K) :
    line (history ++ [entry (.call id) op ans]) pipe =
      received history ++ (receivedItem ⟨op, ans⟩).toList ++
        (pipe.downstream ++ carried (own .forwardLoop history)) ++ buffered pipe := by
  have others : own Task.forwardLoop [entry (Task.call id) op ans] = [] :=
    own_singleton_of_ne (by simp) _
  cases shows : receivedItem (⟨op, ans⟩ : Act (sig K T)) with
  | none => simp [line, inFlight, received, shown, shows, others]
  | some item => simp [line, inFlight, received, shown, shows, others]

theorem moves_loop (attached : before.receiverDropped = false)
    (idle : settings.policy = .block → before.buf = [] ∧ carried (own .forwardLoop history) = [])
    (fires : before.exec settings op = some (ans, after))
    (may : Forwards (own Task.forwardLoop history) ⟨op, ans⟩) :
    Moves settings history before (entry .forwardLoop op ans) after := by
  cases op with
  | send item =>
    obtain ⟨rest, held⟩ := List.head?_eq_some_iff.mp may
    have buffers : settings.policy ≠ .block := by
      intro blocks
      rw [(idle blocks).2] at held
      cases held
    simp only [Pipe.exec, attached, Bool.false_eq_true, if_false] at fires
    split at fires
    · obtain ⟨rfl, rfl⟩ := Prod.mk.inj (Option.some.inj fires)
      refine .quiet (by simp [sentItem, buffers]) ?_ (.inl rfl)
      rw [line_loop, held]
      simp [line, inFlight, held, receivedItem, carriedAfter, buffered]
    · cases fires
  | take =>
    have held : carried (own Task.forwardLoop history) = [] := may
    obtain ⟨rfl, rfl⟩ := Prod.mk.inj (Option.some.inj fires)
    refine .quiet rfl ?_ (.inr rfl)
    rw [line_loop, held]
    simp [line, inFlight, held, receivedItem, carriedAfter, buffered]
  | loadSourceClosed =>
    obtain ⟨rfl, rfl⟩ := Prod.mk.inj (Option.some.inj fires)
    refine .quiet rfl ?_ (.inl rfl)
    rw [line_loop]
    simp [line, inFlight, receivedItem, carriedAfter]
  | notified =>
    simp only [Pipe.exec] at fires
    split at fires
    · obtain ⟨rfl, rfl⟩ := Prod.mk.inj (Option.some.inj fires)
      refine .quiet rfl ?_ (.inl rfl)
      rw [line_loop]
      simp [line, inFlight, receivedItem, carriedAfter, buffered]
    · cases fires
  | isClosed | push | notifyOne | storeSourceClosed | receive | dropReceiver => exact may.elim

theorem moves_call (attached : before.receiverDropped = false)
    (idle : settings.policy = .block → before.buf = [] ∧ carried (own .forwardLoop history) = [])
    (keeps : op ≠ .dropReceiver) (fires : before.exec settings op = some (ans, after)) (id : ι)
    (may : op ∈ callOps settings) :
    Moves settings history before (entry (.call id) op ans) after := by
  cases op with
  | send item =>
    have blocks : settings.policy = .block := may
    obtain ⟨empty, none_carried⟩ := idle blocks
    simp only [Pipe.exec, attached, Bool.false_eq_true, if_false] at fires
    split at fires
    · obtain ⟨rfl, rfl⟩ := Prod.mk.inj (Option.some.inj fires)
      refine .direct item blocks (by simp [sentItem, blocks]) ?_ rfl
      rw [line_call]
      simp [line, inFlight, none_carried, receivedItem, buffered, empty]
    · cases fires
  | push item =>
    simp only [Pipe.exec] at fires
    split at fires
    · obtain ⟨rfl, rfl⟩ := Prod.mk.inj (Option.some.inj fires)
      refine .quiet rfl ?_ (.inl rfl)
      rw [line_call]
      simp [line, inFlight, receivedItem]
    · obtain ⟨rfl, rfl⟩ := Prod.mk.inj (Option.some.inj fires)
      refine .push item may rfl rfl (received history ++ inFlight history before) rfl ?_ rfl
      rw [line_call]
      simp [inFlight, receivedItem]
  | receive =>
    simp only [Pipe.exec] at fires
    split at fires
    · cases fires
    · rename_i item rest queue
      obtain ⟨rfl, rfl⟩ := Prod.mk.inj (Option.some.inj fires)
      refine .quiet rfl ?_ (.inl rfl)
      rw [line_call]
      simp [line, inFlight, receivedItem, queue, buffered]
  | isClosed | notifyOne | storeSourceClosed =>
    obtain ⟨rfl, rfl⟩ := Prod.mk.inj (Option.some.inj fires)
    refine .quiet rfl ?_ (.inl rfl)
    rw [line_call]
    simp [line, inFlight, receivedItem, buffered]
  | dropReceiver => exact absurd rfl keeps
  | take | loadSourceClosed | notified => exact may.elim

theorem idle_step (idle : settings.policy = .block →
      before.buf = [] ∧ carried (own .forwardLoop history) = [])
    (fires : before.exec settings op = some (ans, after))
    (may : performs settings task (own task history) ⟨op, ans⟩) (blocks : settings.policy = .block) :
    after.buf = [] ∧ carried (own .forwardLoop
      (history ++ [entry task op ans])) = [] := by
  obtain ⟨empty, none_carried⟩ := idle blocks
  cases task with
  | forwardLoop =>
    rw [own_append, own_singleton_self, carried_append, none_carried]
    cases op with
    | send item =>
      have held : (carried (own Task.forwardLoop history)).head? = some item := may
      rw [none_carried] at held
      cases held
    | take =>
      obtain ⟨rfl, rfl⟩ := Prod.mk.inj (Option.some.inj fires)
      simp [carriedAfter, empty]
    | loadSourceClosed =>
      obtain ⟨rfl, rfl⟩ := Prod.mk.inj (Option.some.inj fires)
      exact ⟨empty, rfl⟩
    | notified =>
      simp only [Pipe.exec] at fires
      split at fires
      · obtain ⟨rfl, rfl⟩ := Prod.mk.inj (Option.some.inj fires)
        exact ⟨empty, rfl⟩
      · cases fires
    | isClosed | push | notifyOne | storeSourceClosed | receive | dropReceiver => exact may.elim
  | call id =>
    have others : own Task.forwardLoop [entry (Task.call id) op ans] = [] :=
      own_singleton_of_ne (by simp) _
    rw [own_append, others, List.append_nil]
    refine ⟨?_, none_carried⟩
    cases op with
    | push item => exact absurd blocks may
    | send item | receive =>
      simp only [Pipe.exec] at fires
      repeat' split at fires
      all_goals cases fires
      all_goals exact empty
    | isClosed | notifyOne | storeSourceClosed | dropReceiver =>
      obtain ⟨rfl, rfl⟩ := Prod.mk.inj (Option.some.inj fires)
      exact empty
    | take | loadSourceClosed | notified => exact may.elim

theorem attached_step (attached : before.receiverDropped = false) (keeps : op ≠ .dropReceiver)
    (fires : before.exec settings op = some (ans, after)) : after.receiverDropped = false := by
  cases op with
  | dropReceiver => exact absurd rfl keeps
  | isClosed | push | notifyOne | send | loadSourceClosed | storeSourceClosed | take | notified
  | receive =>
    simp only [Pipe.exec] at fires
    repeat' split at fires
    all_goals cases fires
    all_goals exact attached

omit [DecidableEq K] [DecidableEq ι] in
theorem sent_snoc (next : Entry (sig K T) (Task ι)) :
    sent settings (history ++ [next]) = sent settings history ++ (sentItem settings next.act).toList := by
  cases shows : sentItem settings next.act with
  | none => simp [sent, shown, shows]
  | some item => simp [sent, shown, shows]

variable {next : Entry (sig K T) (Task ι)}

theorem Moves.tidy (moves : Moves settings history before next after)
    (tidy : Tidy settings before.buf) : Tidy settings after.buf := by
  cases moves with
  | quiet none same buf =>
    rcases buf with kept | emptied
    · rwa [kept]
    · rw [emptied]
      exact .empty
  | direct item blocks sends joins buf => rwa [buf]
  | push item buffers sends evicts front old new buf =>
    rw [buf]
    exact tidy.pushItem item

theorem Moves.whole (moves : Moves settings history before next after)
    (blocks : settings.policy = .block) (whole : line history before = sent settings history) :
    line (history ++ [next]) after = sent settings (history ++ [next]) := by
  rw [sent_snoc]
  cases moves with
  | quiet none same buf => simp [none, same, whole]
  | direct item blocks sends joins buf => simp [sends, joins, whole]
  | push item buffers sends evicts front old new buf => exact absurd blocks buffers

theorem Moves.ordered (moves : Moves settings history before next after)
    (tidy : Tidy settings before.buf) (keeps : settings.policy ≠ .coalesce)
    (ordered : (line history before).Sublist (sent settings history)) :
    (line (history ++ [next]) after).Sublist (sent settings (history ++ [next])) := by
  rw [sent_snoc]
  cases moves with
  | quiet none same buf => simpa [none, same] using ordered
  | direct item blocks sends joins buf =>
    rw [sends, joins]
    exact ordered.append_right _
  | push item buffers sends evicts front old new buf =>
    have kept : (buffered after).Sublist (buffered before ++ [item]) := by
      rw [buffered, buf]
      exact pushItem_sublist tidy.fits keeps item
    rw [sends, new]
    calc
      (front ++ buffered after).Sublist (front ++ (buffered before ++ [item])) := kept.append_left _
      _ = line history before ++ [item] := by rw [old, List.append_assoc]
      (line history before ++ [item]).Sublist (sent settings history ++ [item]) :=
        ordered.append_right _

/-- What one action does to the items of one key: it puts a new one at their end, or it
sends none of them and evicts at most the last. -/
theorem Moves.ofKey_cases (moves : Moves settings history before next after)
    (coalesces : settings.policy = .coalesce) (tidy : Tidy settings before.buf) (key : K) :
    (∃ item kept, sentItem settings next.act = some item ∧ settings.keyOf item = key ∧
        kept.Sublist (ofKey settings key (line history before)) ∧
        ofKey settings key (line (history ++ [next]) after) = kept ++ [item]) ∨
      (∀ item, sentItem settings next.act = some item → settings.keyOf item ≠ key) ∧
        (ofKey settings key (line (history ++ [next]) after) =
            ofKey settings key (line history before) ∨
          ∃ old, (key, old) ∈ evictedBy next.act ∧ ofKey settings key (line history before) =
            ofKey settings key (line (history ++ [next]) after) ++ [old]) := by
  cases moves with
  | quiet none same buf =>
    right
    refine ⟨by simp [none], .inl (by rw [same])⟩
  | direct item blocks sends joins buf => simp [coalesces] at blocks
  | push item buffers sends evicts front old new buf =>
    rw [old, new, evicts]
    simp only [ofKey_append, buffered, buf]
    by_cases mine : settings.keyOf item = key
    · subst mine
      left
      refine ⟨item, ofKey settings (settings.keyOf item) front, sends, rfl,
        List.sublist_append_left .., ?_⟩
      rw [ofKey_pushItem_own coalesces tidy]
    · right
      refine ⟨fun other shows => ?_, ?_⟩
      · rw [sends] at shows
        rwa [← Option.some.inj shows]
      · rcases ofKey_pushItem_other coalesces tidy item mine with kept | ⟨gone, evicted, was, is⟩
        · exact .inl (by rw [kept])
        · refine .inr ⟨gone, evicted, ?_⟩
          rw [was, is, List.append_nil]

theorem Moves.perKey (moves : Moves settings history before next after)
    (coalesces : settings.policy = .coalesce) (tidy : Tidy settings before.buf) (key : K)
    (ordered : (ofKey settings key (line history before)).Sublist
      (ofKey settings key (sent settings history))) :
    (ofKey settings key (line (history ++ [next]) after)).Sublist
      (ofKey settings key (sent settings (history ++ [next]))) := by
  rw [sent_snoc, ofKey_append]
  rcases moves.ofKey_cases coalesces tidy key with
    ⟨item, kept, sends, mine, older, now⟩ | ⟨others, same | ⟨old, -, split⟩⟩
  · rw [now, sends, Option.toList_some, ofKey_cons_of_eq mine, ofKey_nil]
    exact (older.trans ordered).append_right _
  · rw [same]
    exact ordered.trans (List.sublist_append_left ..)
  · rw [split] at ordered
    exact ((List.sublist_append_left ..).trans ordered).trans (List.sublist_append_left ..)

/-- The newest item of each key is the last of them that is received, in flight or
buffered, unless it was evicted. -/
def KeepsNewest (settings : Settings K T) (history : List (Entry (sig K T) (Task ι)))
    (pipe : Pipe K T) : Prop :=
  ∀ pre entry post item, history = pre ++ entry :: post → sentItem settings entry.act = some item →
    (∀ other ∈ post, ∀ later, sentItem settings other.act = some later →
      settings.keyOf later ≠ settings.keyOf item) →
    (∃ other ∈ post, (settings.keyOf item, item) ∈ evictedBy other.act) ∨
      (ofKey settings (settings.keyOf item) (line history pipe)).getLast? = some item

theorem Moves.newest (moves : Moves settings history before next after)
    (coalesces : settings.policy = .coalesce) (tidy : Tidy settings before.buf)
    (newest : KeepsNewest settings history before) :
    KeepsNewest settings (history ++ [next]) after := by
  intro pre sender post item split sends unsurpassed
  have cases := moves.ofKey_cases coalesces tidy (settings.keyOf item)
  rcases List.eq_nil_or_concat post with rfl | ⟨front, last, rfl⟩
  · obtain ⟨rfl, same⟩ := List.append_inj' split rfl
    obtain rfl := (List.cons.inj same).1
    rcases cases with ⟨again, kept, shows, -, -, now⟩ | ⟨others, -⟩
    · rw [sends] at shows
      obtain rfl := Option.some.inj shows
      right
      rw [now, List.getLast?_concat]
    · exact absurd rfl (others item sends)
  · rw [List.concat_eq_append] at split unsurpassed ⊢
    rw [← List.cons_append, ← List.append_assoc] at split
    obtain ⟨rfl, same⟩ := List.append_inj' split rfl
    obtain rfl := (List.cons.inj same).1
    have earlier := newest pre sender front item rfl sends fun other member =>
      unsurpassed other (List.mem_append_left _ member)
    rcases earlier with ⟨other, member, evicted⟩ | atEnd
    · exact .inl ⟨other, List.mem_append_left _ member, evicted⟩
    · rcases cases with ⟨again, kept, shows, mine, -, -⟩ | ⟨-, same | ⟨old, evicted, was⟩⟩
      · exact absurd mine (unsurpassed next (by simp) again shows)
      · right
        rw [same]
        exact atEnd
      · rw [was, List.getLast?_concat] at atEnd
        obtain rfl := Option.some.inj atEnd
        exact .inl ⟨next, by simp, evicted⟩

/-- What holds of a channel whose receiver is kept. -/
structure Delivers (settings : Settings K T) (history : List (Entry (sig K T) (Task ι)))
    (pipe : Pipe K T) : Prop where
  attached : pipe.receiverDropped = false
  tidy : Tidy settings pipe.buf
  idle : settings.policy = .block → pipe.buf = [] ∧ carried (own .forwardLoop history) = []
  whole : settings.policy = .block → line history pipe = sent settings history
  ordered : settings.policy ≠ .coalesce → (line history pipe).Sublist (sent settings history)
  perKey : settings.policy = .coalesce → ∀ key,
    (ofKey settings key (line history pipe)).Sublist (ofKey settings key (sent settings history))
  newest : settings.policy = .coalesce → KeepsNewest settings history pipe

theorem Delivers.start : Delivers settings ([] : List (Entry (sig K T) (Task ι))) Pipe.new where
  attached := rfl
  tidy := .empty
  idle _ := ⟨rfl, rfl⟩
  whole _ := rfl
  ordered _ := List.Sublist.refl _
  perKey _ _ := List.Sublist.refl _
  newest _ := by
    intro pre entry post item split
    simp at split

theorem Delivers.moves (delivers : Delivers settings history before) (keeps : op ≠ .dropReceiver)
    (fires : before.exec settings op = some (ans, after))
    (may : performs settings task (own task history) ⟨op, ans⟩) :
    Moves settings history before (entry task op ans) after := by
  cases task with
  | forwardLoop => exact moves_loop delivers.attached delivers.idle fires may
  | call id => exact moves_call delivers.attached delivers.idle keeps fires id may

theorem Delivers.step (delivers : Delivers settings history before) (keeps : op ≠ .dropReceiver)
    (fires : before.exec settings op = some (ans, after))
    (may : performs settings task (own task history) ⟨op, ans⟩) :
    Delivers settings (history ++ [entry task op ans]) after := by
  have moves := delivers.moves keeps fires may
  exact
    { attached := attached_step delivers.attached keeps fires
      tidy := moves.tidy delivers.tidy
      idle := idle_step delivers.idle fires may
      whole := fun blocks => moves.whole blocks (delivers.whole blocks)
      ordered := fun other => moves.ordered delivers.tidy other (delivers.ordered other)
      perKey := fun coalesces key =>
        moves.perKey coalesces delivers.tidy key (delivers.perKey coalesces key)
      newest := fun coalesces => moves.newest coalesces delivers.tidy (delivers.newest coalesces) }

end Steps

section Runs

variable {K T ι : Type} [DecidableEq K] [DecidableEq ι] {settings : Settings K T} {rounds : Nat}
  {calls : ι → Call T} {history : List (Entry (sig K T) (Task ι))}
  {config : Config (machine settings) (Task ι) (Outcome T)}

theorem Run.delivers (run : Run (opened settings rounds calls) history config)
    (kept : ∀ entry ∈ history, entry.act.op ≠ .dropReceiver) :
    Delivers settings history config.state := by
  revert kept
  refine Run.invariant (opened_justifies settings rounds calls)
    (fun history pipe => (∀ entry ∈ history, entry.act.op ≠ .dropReceiver) →
      Delivers settings history pipe) (fun _ => .start) ?_ run
  intro history before task op ans after choice delivers fires may kept
  refine (delivers fun entry member => kept entry (List.mem_append_left _ member)).step ?_ fires may
  exact kept _ (List.mem_append_right _ (List.mem_singleton_self _))

omit [DecidableEq K] in
theorem received_prefix (history : List (Entry (sig K T) (Task ι))) (pipe : Pipe K T) :
    received history <+: line history pipe := by
  rw [line, List.append_assoc]
  exact List.prefix_append ..

/-- What a consumer receives, whatever the order of sends, forwarding and receives. -/
theorem overflow_delivery (run : Run (opened settings rounds calls) history config)
    (kept : ∀ entry ∈ history, entry.act.op ≠ .dropReceiver) :
    (settings.policy = .block → received history <+: sent settings history) ∧
      (settings.policy = .dropOldest → (received history).Sublist (sent settings history)) ∧
      (settings.policy = .coalesce →
        (∀ key, (ofKey settings key (received history)).Sublist
          (ofKey settings key (sent settings history))) ∧
        ((buffered config.state).map settings.keyOf).Nodup ∧
        (buffered config.state).length ≤ settings.cap ∧
        KeepsNewest settings history config.state) := by
  have delivers := Run.delivers run kept
  have front := received_prefix history config.state
  refine ⟨fun blocks => ?_, fun drops => ?_, fun coalesces => ⟨fun key => ?_, ?_, ?_, ?_⟩⟩
  · rw [← delivers.whole blocks]
    exact front
  · exact front.sublist.trans (delivers.ordered (by simp [drops]))
  · exact (front.sublist.filter _).trans (delivers.perKey coalesces key)
  · have keys : (buffered config.state).map settings.keyOf = config.state.buf.map Prod.fst := by
      rw [buffered, List.map_map]
      exact List.map_congr_left fun slot member => (delivers.tidy.keyed slot member).symm
    rw [keys]
    exact delivers.tidy.single coalesces
  · simpa [buffered] using delivers.tidy.fits
  · exact delivers.newest coalesces

end Runs

/-- A coalescing channel for two keys with room for one item. -/
def narrow : Settings Nat (Nat × Nat) := policyChannel 0 .coalesce Prod.fst true

def narrowCalls : Fin 4 → Call (Nat × Nat)
  | 0 => .send (1, 10)
  | 1 => .send (2, 20)
  | 2 => .send (2, 21)
  | 3 => .recv

/-- The second item evicts the first, the third takes the place of the second. -/
theorem overflow_delivery_narrow : ∃ history config, Run (opened narrow 2 narrowCalls) history config ∧
    sent narrow history = [(1, 10), (2, 20), (2, 21)] ∧ received history = [(2, 21)] ∧
    KeepsNewest narrow history config.state := by
  obtain ⟨history, config, run, sends, receives, kept⟩ : ∃ history config,
      Run (opened narrow 2 narrowCalls) history config ∧
      sent narrow history = [(1, 10), (2, 20), (2, 21)] ∧ received history = [(2, 21)] ∧
      ∀ entry ∈ history, entry.act.op ≠ Op.dropReceiver :=
    Run.exists_of_replay (List.flatten
      [List.replicate 3 (.call 0, ()), List.replicate 3 (.call 1, ()), List.replicate 3 (.call 2, ()),
        List.replicate 3 (.forwardLoop, ()), [(.call 3, ())]]) (by decide +kernel)
  exact ⟨history, config, run, sends, receives, ((overflow_delivery run kept).2.2 rfl).2.2.2⟩

end LongTrader.Overflow
