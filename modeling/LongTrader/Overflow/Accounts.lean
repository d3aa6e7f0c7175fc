import LongTrader.Overflow.Delivery
import Mathlib.Algebra.Order.Group.Multiset
import Mathlib.Tactic.Abel

/-! Where the items of a channel go: every item that was sent is received, on its way,
buffered, replaced by a newer one of its key, or evicted from a full buffer. -/

namespace LongTrader.Overflow

open Interleave

section Accounting

variable {K T ι : Type} [DecidableEq K] [DecidableEq ι] {settings : Settings K T}

/-- The buffer after one more action. -/
def bufferAfter (settings : Settings K T) (buf : List (K × T)) : Act (sig K T) → List (K × T)
  | ⟨.push item, .kept _⟩ => (pushItem settings item buf).2
  | ⟨.take, _⟩ => []
  | _ => buf

/-- The item that a push replaces: the buffered one of its key, under `Coalesce`. -/
def replacedBy (settings : Settings K T) (buf : List (K × T)) : Act (sig K T) → Option T
  | ⟨.push item, .kept _⟩ =>
    if settings.policy = .coalesce then
      (buf.find? fun slot => slot.1 = settings.keyOf item).map Prod.snd
    else none
  | _ => none

/-- The items that the pushes of a history replaced, and the buffer it leaves. -/
def replacing (settings : Settings K T) (history : List (Entry (sig K T) (Task ι))) :
    List (K × T) × List T :=
  history.foldl (fun now entry => (bufferAfter settings now.1 entry.act,
    now.2 ++ (replacedBy settings now.1 entry.act).toList)) ([], [])

def replaced (settings : Settings K T) (history : List (Entry (sig K T) (Task ι))) : List T :=
  (replacing settings history).2

/-- The items that were evicted from a full buffer. -/
def evicted (history : List (Entry (sig K T) (Task ι))) : List T :=
  history.flatMap fun entry => (evictedBy entry.act).map Prod.snd

omit [DecidableEq ι] in
theorem replacing_snoc (history : List (Entry (sig K T) (Task ι))) (next : Entry (sig K T) (Task ι)) :
    replacing settings (history ++ [next]) =
      (bufferAfter settings (replacing settings history).1 next.act,
        replaced settings history ++
          (replacedBy settings (replacing settings history).1 next.act).toList) := by
  simp [replacing, replaced]

omit [DecidableEq K] [DecidableEq ι] in
theorem evicted_snoc (history : List (Entry (sig K T) (Task ι))) (next : Entry (sig K T) (Task ι)) :
    evicted (history ++ [next]) = evicted history ++ (evictedBy next.act).map Prod.snd := by
  simp [evicted]

/-- A push keeps every item it finds, but the one it replaces and those it evicts. -/
theorem pushItem_accounts {buf : List (K × T)} (tidy : Tidy settings buf) (item : T)
    (gone : List (K × T)) :
    (buf.map Prod.snd ++ [item]).Perm ((pushItem settings item buf).2.map Prod.snd ++
      (replacedBy settings buf ⟨.push item, .kept gone⟩).toList ++
      (pushItem settings item buf).1.map Prod.snd) := by
  rcases pushItem_cases tidy.fits item with ⟨coalesces, present, pushed⟩ | ⟨absent, joined⟩
  · obtain ⟨front, old, back, rfl, before, written⟩ := replace_split present item
    have found : (front ++ (settings.keyOf item, old) :: back).find?
        (fun slot => slot.1 = settings.keyOf item) = some (settings.keyOf item, old) := by
      rw [List.find?_append, List.find?_eq_none.mpr (by simpa using before)]
      simp
    rw [pushed, written]
    simp only [replacedBy, coalesces, if_true, found, Option.map_some, Option.toList_some,
      List.map_append, List.map_cons, List.map_nil, List.append_nil, List.append_assoc]
    apply List.Perm.append_left
    exact (List.perm_append_singleton item (old :: back.map Prod.snd)).trans
      (((List.perm_append_singleton old (back.map Prod.snd)).symm).cons item)
  · have none_replaced : replacedBy settings buf ⟨.push item, .kept gone⟩ = none := by
      by_cases coalesces : settings.policy = .coalesce
      · have missing : buf.find? (fun slot => slot.1 = settings.keyOf item) = none :=
          List.find?_eq_none.mpr (by simpa using absent coalesces)
        simp [replacedBy, missing]
      · simp [replacedBy, coalesces]
    rw [none_replaced]
    rcases joined with ⟨-, pushed⟩ | ⟨oldest, rest, rfl, pushed⟩
    · rw [pushed]
      simp
    · rw [pushed]
      simpa using (List.perm_append_singleton oldest.2 (rest.map Prod.snd ++ [item])).symm

/-- Every item that was sent is received, in flight, buffered, replaced or evicted. -/
structure Accounts (settings : Settings K T) (history : List (Entry (sig K T) (Task ι)))
    (pipe : Pipe K T) : Prop where
  buf : pipe.buf = (replacing settings history).1
  items : (sent settings history).Perm
    (line history pipe ++ replaced settings history ++ evicted history)

variable {history : List (Entry (sig K T) (Task ι))} {before after : Pipe K T} {task : Task ι}
  {op : Op T} {ans : op.Ans K}

omit [DecidableEq ι] in
theorem exec_buf (fires : before.exec settings op = some (ans, after)) :
    after.buf = bufferAfter settings before.buf ⟨op, ans⟩ := by
  cases op with
  | push item =>
    simp only [Pipe.exec] at fires
    split at fires
    · obtain ⟨rfl, rfl⟩ := Prod.mk.inj (Option.some.inj fires)
      rfl
    · obtain ⟨rfl, rfl⟩ := Prod.mk.inj (Option.some.inj fires)
      rfl
  | isClosed | notifyOne | loadSourceClosed | storeSourceClosed | take | dropReceiver =>
    obtain ⟨rfl, rfl⟩ := Prod.mk.inj (Option.some.inj fires)
    rfl
  | send | notified | receive =>
    simp only [Pipe.exec] at fires
    repeat' split at fires
    all_goals cases fires
    all_goals rfl

/-- Only a push that keeps its item replaces or evicts. -/
theorem loses_nothing {act : Act (sig K T)} (noPush : ∀ item gone, act ≠ ⟨.push item, .kept gone⟩)
    (buf : List (K × T)) : replacedBy settings buf act = none ∧ evictedBy act = [] := by
  obtain ⟨op, ans⟩ := act
  cases op with
  | push item =>
    cases ans with
    | panicked => exact ⟨rfl, rfl⟩
    | kept gone => exact absurd rfl (noPush item gone)
  | isClosed | notifyOne | send | loadSourceClosed | storeSourceClosed | take | notified | receive
  | dropReceiver => exact ⟨rfl, rfl⟩

omit [DecidableEq K] in
/-- A buffering channel sends by pushing. -/
theorem push_of_sent {act : Act (sig K T)} {item : T} (buffers : settings.policy ≠ .block)
    (sends : sentItem settings act = some item) : ∃ gone, act = ⟨.push item, .kept gone⟩ := by
  unfold sentItem at sends
  split at sends
  · simp [buffers] at sends
  · obtain rfl := Option.some.inj sends
    exact ⟨_, rfl⟩
  · cases sends

theorem Accounts.start : Accounts settings ([] : List (Entry (sig K T) (Task ι))) Pipe.new :=
  ⟨rfl, List.Perm.refl _⟩

theorem Accounts.step (accounts : Accounts settings history before) (tidy : Tidy settings before.buf)
    (fires : before.exec settings op = some (ans, after))
    (may : performs settings task (own task history) ⟨op, ans⟩)
    (moves : Moves settings history before (entry task op ans) after) :
    Accounts settings (history ++ [entry task op ans]) after := by
  have items := accounts.items
  refine ⟨?_, ?_⟩
  · rw [replacing_snoc, ← accounts.buf]
    exact exec_buf fires
  · rw [sent_snoc, evicted_snoc, replaced, replacing_snoc, ← accounts.buf]
    dsimp only
    cases moves with
    | quiet none same buf =>
      have noPush : ∀ item gone, (⟨op, ans⟩ : Act (sig K T)) ≠ ⟨.push item, .kept gone⟩ := by
        rintro item gone ⟨⟩
        cases none
      obtain ⟨kept, spared⟩ := @loses_nothing _ _ _ settings _ noPush before.buf
      simpa [none, same, kept, spared] using items
    | direct item blocks sends joins buf =>
      have noPush : ∀ item gone, (⟨op, ans⟩ : Act (sig K T)) ≠ ⟨.push item, .kept gone⟩ := by
        rintro other gone ⟨⟩
        cases task with
        | forwardLoop => exact may
        | call id => exact may blocks
      obtain ⟨kept, spared⟩ := @loses_nothing _ _ _ settings _ noPush before.buf
      rw [sends, joins, kept, spared]
      rw [← Multiset.coe_eq_coe] at items ⊢
      simp only [← Multiset.coe_add, Option.toList_some, Option.toList_none, List.map_nil,
        List.append_nil] at items ⊢
      rw [items]
      abel
    | push item buffers sends evicts front old new buf =>
      obtain ⟨gone, same⟩ := push_of_sent buffers sends
      obtain ⟨rfl, rfl⟩ := Act.mk.inj same
      have balance := pushItem_accounts tidy item gone
      rw [← evicts] at balance
      rw [sends, new, buffered, buf]
      rw [old, buffered] at items
      rw [← Multiset.coe_eq_coe] at items balance ⊢
      simp only [← Multiset.coe_add, Option.toList_some] at items balance ⊢
      rw [items]
      calc
        _ = (front : Multiset T) + (replaced settings history : Multiset T) +
            (evicted history : Multiset T) +
            ((before.buf.map Prod.snd : Multiset T) + ([item] : Multiset T)) := by abel
        _ = _ := by
          rw [balance]
          abel

end Accounting

end LongTrader.Overflow
