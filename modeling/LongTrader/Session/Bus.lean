import LongTrader.Interleave.Turns
import LongTrader.Session.Transitions
import Mathlib.Data.List.DropRight

/-! The event bus of one session along a history. Every call is made of whole
publishes and of actions that leave the bus alone, so numbers, pushes and
broadcasts can be followed from one end of a run to the other. -/

namespace LongTrader.Session

open Interleave

/-- The actions of one `publish`. -/
def published (sid : String) (event : StrategyEvent) (seq : Nat) : List (Act sig) :=
  [⟨Op.nextSeq sid, seq⟩, ⟨Op.lockRing sid, ()⟩, ⟨Op.pushRing sid (stamp event seq), ()⟩,
    ⟨Op.send sid (stamp event seq), ()⟩]

/-- The actions that touch no event bus. -/
def offBus : Set Op :=
  {op | match op with
    | .nextSeq _ | .pushRing .. | .send .. => False
    | _ => True}

theorem steady_offBus {op : Op} (free : op.steady = true) : op ∈ offBus := by
  cases op
  case nextSeq | pushRing | send => cases free
  all_goals trivial

section Emitting

variable {holds : List (Act sig) → Prop} (composes : Composes holds)
  (single : ∀ act : Act sig, act.op ∈ offBus → holds [act])
  (whole : ∀ sid event seq, holds (published sid event seq))

include composes

section Quiet

include single

theorem offBus_emits {α : Type} {task : Task α} (within : task.Within offBus) :
    task.Emits holds :=
  within.emits composes single

theorem offBus_act {α : Type} {op : Op} {f : op.Ans → Task α} (free : op ∈ offBus)
    (next : ∀ ans, (f ans).Emits holds) : (perform op >>= f).Emits holds :=
  .act composes (fun _ => single _ free) next

end Quiet

section Publishing

include whole

omit composes in
theorem publish_emits (sid : String) (event : StrategyEvent) : (publish sid event).Emits holds := by
  intro acts shared finishes
  obtain ⟨seq, rfl, rfl⟩ := publish_completes.mp finishes
  exact whole sid event seq

theorem publishStateChange_emits (sid : String) (source target : SessionState) (reason : String) :
    (publishStateChange sid source target reason).Emits holds :=
  (publish_emits whole sid _).bind composes fun _ => .done composes _

end Publishing

include single whole

theorem beginReconcile_emits (sid : String) : (beginReconcile sid).Emits holds := by
  unfold beginReconcile
  refine offBus_act composes single trivial fun registered => ?_
  split
  · refine offBus_act composes single trivial fun state => ?_
    split
    · refine offBus_act composes single trivial fun swapped => ?_
      split
      · exact (publishStateChange_emits composes whole _ _ _ _).bind composes
          fun _ => .done composes _
      · exact .done composes _
    all_goals exact .done composes _
  · exact .done composes _

theorem completeReconcile_emits (sid : String) (snapshotSequence : Nat) :
    (completeReconcile sid snapshotSequence).Emits holds := by
  unfold completeReconcile
  refine offBus_act composes single trivial fun registered => ?_
  split
  · refine offBus_act composes single trivial fun _ => ?_
    refine offBus_act composes single trivial fun state => ?_
    split
    · refine offBus_act composes single trivial fun swapped => ?_
      split
      · exact (publishStateChange_emits composes whole _ _ _ _).bind composes
          fun _ => .done composes _
      · exact .done composes _
    all_goals exact .done composes _
  · exact .done composes _

theorem finishStop_emits (sid : String) (failures : List String) :
    (finishStop sid failures).Emits holds := by
  have reports : (reportStop sid failures).Emits holds :=
    offBus_emits composes single (reportStop_within (fun _ => steady_offBus) failures)
  unfold finishStop
  refine offBus_act composes single trivial fun state => ?_
  split
  · exact .done composes _
  · split
    · exact .done composes _
    · refine offBus_act composes single trivial fun swapped => ?_
      split
      · exact reports
      · refine offBus_act composes single trivial fun _ => ?_
        exact (publishStateChange_emits composes whole _ _ _ _).bind composes fun _ => reports

theorem stopSession_emits (manager : SessionManager) (sid : String) (cancelOpenOrders : Bool) :
    (stopSession manager sid cancelOpenOrders).Emits holds := by
  unfold stopSession
  refine offBus_act composes single trivial fun registered => ?_
  split
  · refine offBus_act composes single trivial fun state => ?_
    split
    · exact .done composes _
    · split
      · have cancels : (cancelSessionOrders manager sid).Within offBus :=
          cancelSessionOrders_within (fun _ => steady_offBus) fun _ => trivial
        exact (offBus_emits composes single cancels).bind composes
          (finishStop_emits composes single whole sid)
      · exact finishStop_emits composes single whole sid []
  · exact .done composes _

theorem tripKillSwitch_emits (manager : SessionManager) (sid : String) :
    (tripKillSwitch manager sid).Emits holds := by
  unfold tripKillSwitch
  refine offBus_act composes single trivial fun state => ?_
  split
  · refine offBus_act composes single trivial fun swapped => ?_
    split
    · exact .done composes _
    · refine offBus_act composes single trivial fun _ => ?_
      refine (publishStateChange_emits composes whole _ _ _ _).bind composes fun _ => ?_
      refine offBus_act composes single trivial fun policy => ?_
      exact offBus_emits composes single
        (executeScope_within (fun _ => steady_offBus) (fun _ => trivial) trivial policy.scope)
  · exact .done composes _

theorem checkLeaseExpiry_emits (manager : SessionManager) (sid : String) :
    (checkLeaseExpiry manager sid).Emits holds := by
  unfold checkLeaseExpiry
  refine offBus_act composes single trivial fun registered => ?_
  split
  · refine offBus_act composes single trivial fun policy => ?_
    refine offBus_act composes single trivial fun state => ?_
    split
    · refine offBus_act composes single trivial fun elapsed => ?_
      dsimp only [Proc.pure_eq, Proc.done_bind]
      split
      · exact (tripKillSwitch_emits composes single whole manager sid).bind composes
          fun _ => .done composes _
      · exact .done composes _
    · exact .done composes _
  · exact .done composes _

theorem reconcileState_emits (manager : SessionManager) (sid : String) :
    (reconcileState manager sid).Emits holds := by
  unfold reconcileState
  refine (beginReconcile_emits composes single whole sid).bind composes fun begun => ?_
  split
  · exact .done composes _
  · refine offBus_act composes single trivial fun answer => ?_
    split
    · exact .done composes _
    · refine (completeReconcile_emits composes single whole sid _).bind composes fun completed => ?_
      split
      · exact .done composes _
      · exact .done composes _

theorem reportLog_emits (sid : String) (level : LogLevel) (message : String)
    (fields : List (String × String)) : (reportLog sid level message fields).Emits holds := by
  unfold reportLog
  refine offBus_act composes single trivial fun registered => ?_
  split
  · refine offBus_act composes single trivial fun _ => ?_
    exact (publish_emits whole sid _).bind composes fun _ => .done composes _
  · exact .done composes _

/-- Every call is made of whole publishes and of actions off the bus. -/
theorem Call.emits (manager : SessionManager) (call : Call) :
    (call.task manager).Emits holds := by
  have routine : ∀ op : Op, op.steady = true → op ∈ offBus := fun _ => steady_offBus
  cases call with
  | beginReconcile sid => exact (beginReconcile_emits composes single whole sid).map _
  | completeReconcile sid sequence =>
    exact (completeReconcile_emits composes single whole sid sequence).map _
  | reconcileState sid => exact (reconcileState_emits composes single whole manager sid).map _
  | stopSession sid cancels => exact (stopSession_emits composes single whole manager sid cancels).map _
  | checkLeaseExpiry sid => exact (checkLeaseExpiry_emits composes single whole manager sid).map _
  | tripKillSwitch sid => exact (tripKillSwitch_emits composes single whole manager sid).map _
  | publish sid event => exact (publish_emits whole sid event).map _
  | reportLog sid level message fields =>
    exact (reportLog_emits composes single whole sid level message fields).map _
  | createOrder request =>
    exact (offBus_emits composes single (createOrder_within routine (fun _ => trivial) request
      trivial fun _ _ => ⟨trivial, fun _ => trivial⟩)).map _
  | createOrders request =>
    exact (offBus_emits composes single (createOrders_within routine (fun _ => trivial) request
      trivial trivial fun _ _ => ⟨trivial, fun _ => trivial⟩)).map _
  | attach token policy sid client =>
    exact (offBus_emits composes single (attachWithReconnect_within routine token policy client
      fun _ => trivial)).map _
  | keepAlive sid => exact (offBus_emits composes single (keepAlive_within routine)).map _
  | setKillSwitchPolicy sid policy =>
    exact (offBus_emits composes single (setKillSwitchPolicy_within routine policy
      fun _ => trivial)).map _
  | stream sid resumeToken polls =>
    exact (offBus_emits composes single (streamStrategyEvents_within routine resumeToken polls)).map _
  | venueClose exchange orderId =>
    exact (offBus_emits composes single (Proc.within_perform.mpr (routine _ rfl))).map _
  | timePasses elapsed =>
    exact (offBus_emits composes single (Proc.within_perform.mpr (routine _ rfl))).map _

end Emitting

/-- The number taken for session `sid` by an action. -/
def numbered (sid : String) : Act sig → Option Nat
  | ⟨.nextSeq target, seq⟩ => if target = sid then some seq else none
  | _ => none

/-- The event pushed to the replay ring of `sid` by an action. -/
def pushed (sid : String) : Act sig → Option StrategyEvent
  | ⟨.pushRing target event, _⟩ => if target = sid then some event else none
  | _ => none

/-- The event fanned out to the subscribers of `sid` by an action. -/
def fannedOut (sid : String) : Act sig → Option StrategyEvent
  | ⟨.send target event, _⟩ => if target = sid then some event else none
  | _ => none

/-- The sequence of the event that a view shows. -/
def sequenceOf (view : Act sig → Option StrategyEvent) (act : Act sig) : Option Nat :=
  (view act).map StrategyEvent.sequence

theorem shown_sequenceOf {ι : Type} (view : Act sig → Option StrategyEvent)
    (history : List (Entry sig ι)) :
    shown (sequenceOf view) history = (shown view history).map StrategyEvent.sequence := by
  simp only [shown, sequenceOf, List.map_filterMap]

/-- Two stages that every `publish` passes, one after the other. -/
structure Stages {γ : Type} (due seen : Act sig → Option γ) : Prop where
  apart : ∀ act, due act = none ∨ seen act = none
  away : ∀ act : Act sig, act.op ∈ offBus → due act = none ∧ seen act = none
  whole : ∀ target event seq, Settles due seen (published target event seq)

theorem numbered_offBus {sid : String} {act : Act sig} (free : act.op ∈ offBus) :
    numbered sid act = none := by
  obtain ⟨op, ans⟩ := act
  cases op
  case nextSeq => cases free
  all_goals rfl

theorem pushed_offBus {sid : String} {act : Act sig} (free : act.op ∈ offBus) :
    pushed sid act = none := by
  obtain ⟨op, ans⟩ := act
  cases op
  case pushRing => cases free
  all_goals rfl

theorem fannedOut_offBus {sid : String} {act : Act sig} (free : act.op ∈ offBus) :
    fannedOut sid act = none := by
  obtain ⟨op, ans⟩ := act
  cases op
  case send => cases free
  all_goals rfl

/-- Every `publish` takes its number before the stage that a view shows, if the
view shows nothing but that stage. -/
theorem numbering_before {sid : String} {view : Act sig → Option StrategyEvent}
    (later : ∀ target seq, view ⟨Op.nextSeq target, seq⟩ = none)
    (away : ∀ act : Act sig, act.op ∈ offBus → view act = none)
    (elsewhere : ∀ target event seq, target ≠ sid →
      ∀ act ∈ published target event seq, view act = none)
    (here : ∀ event seq, Settles (numbered sid) (sequenceOf view) (published sid event seq)) :
    Stages (numbered sid) (sequenceOf view) := by
  refine ⟨?_, ?_, ?_⟩
  · rintro ⟨op, ans⟩
    cases op
    case nextSeq target => exact .inr (by simp [sequenceOf, later])
    all_goals exact .inl rfl
  · intro act free
    exact ⟨numbered_offBus free, by simp [sequenceOf, away act free]⟩
  · intro target event seq
    by_cases same : target = sid
    · subst same
      exact here event seq
    · apply Settles.silent
      · simp [published, numbered, same]
      · intro act member
        simp [sequenceOf, elsewhere target event seq same act member]

theorem numbering_before_push (sid : String) :
    Stages (numbered sid) (sequenceOf (pushed sid)) := by
  apply numbering_before
  · exact fun _ _ => rfl
  · exact fun _ => pushed_offBus
  · intro target event seq other
    simp [published, pushed, other]
  · intro event seq
    have paid : Settles (numbered sid) (sequenceOf (pushed sid))
        (⟨Op.nextSeq sid, seq⟩ :: ([⟨Op.lockRing sid, ()⟩] ++
          [⟨Op.pushRing sid (stamp event seq), ()⟩])) :=
      .paid (if_pos rfl) rfl (List.forall_mem_singleton.mpr rfl) (List.forall_mem_singleton.mpr rfl)
        (by simp [sequenceOf, pushed]) rfl
    have rest : Settles (numbered sid) (sequenceOf (pushed sid))
        [⟨Op.send sid (stamp event seq), ()⟩] :=
      .silent (List.forall_mem_singleton.mpr rfl) (List.forall_mem_singleton.mpr rfl)
    exact settles_composes.append paid rest

theorem numbering_before_fanOut (sid : String) :
    Stages (numbered sid) (sequenceOf (fannedOut sid)) := by
  apply numbering_before
  · exact fun _ _ => rfl
  · exact fun _ => fannedOut_offBus
  · intro target event seq other
    simp [published, fannedOut, other]
  · intro event seq
    have paid : Settles (numbered sid) (sequenceOf (fannedOut sid))
        (⟨Op.nextSeq sid, seq⟩ :: ([⟨Op.lockRing sid, ()⟩, ⟨Op.pushRing sid (stamp event seq), ()⟩] ++
          [⟨Op.send sid (stamp event seq), ()⟩])) :=
      .paid (if_pos rfl) rfl (List.forall_mem_cons.mpr ⟨rfl, List.forall_mem_singleton.mpr rfl⟩)
        (List.forall_mem_cons.mpr ⟨rfl, List.forall_mem_singleton.mpr rfl⟩)
        (by simp [sequenceOf, fannedOut]) rfl
    exact paid

section Pools

variable {ι : Type} [DecidableEq ι] {manager : SessionManager} {plane : Plane} {calls : ι → Call}
  {history : List (Entry sig ι)} {config : Config machine ι Outcome} {γ : Type}
  {due seen : Act sig → Option γ}

/-- No call reaches a later stage of a publish before the earlier one. -/
theorem Stages.paced (stages : Stages due seen)
    (run : Run (pool manager plane calls) history config) (task : ι) :
    Paced due seen (own task history) := by
  refine Paced.of_path ?_ (run.path task)
  apply Call.emits settles_composes
  · intro act free
    obtain ⟨noneDue, noneSeen⟩ := stages.away act free
    exact .silent (by simpa using noneDue) (by simpa using noneSeen)
  · exact stages.whole

theorem Stages.shown_length (stages : Stages due seen)
    (run : Run (pool manager plane calls) history config) :
    (shown seen history).length ≤ (shown due history).length :=
  (shown_subperm fun task => (stages.paced run task).whole.sublist.subperm).length_le

end Pools

/-- The event bus of a session: its last number, its replay ring, and everything
fanned out to its subscribers. -/
structure Bus where
  seq : Nat
  ring : List StrategyEvent
  sent : List StrategyEvent

def SessionHandle.bus (handle : SessionHandle) : Bus := ⟨handle.seq, handle.ring, handle.sent⟩

/-- The bus of `sid`; that of a session still to be attached is empty. -/
def Plane.bus (plane : Plane) (sid : String) : Bus :=
  match plane.handles sid with
  | none => ⟨0, [], []⟩
  | some handle => handle.bus

/-- What an action does to the bus of `sid`. -/
def Bus.record (sid : String) (bus : Bus) (act : Act sig) : Bus where
  seq := if (numbered sid act).isSome then (bus.seq + 1) % u64Size else bus.seq
  ring := match pushed sid act with
    | none => bus.ring
    | some event => pushTrim bus.ring event
  sent := bus.sent ++ (fannedOut sid act).toList

/-- The bus of `sid` at the end of a history. -/
def Bus.along {ι : Type} (sid : String) (bus : Bus) (history : List (Entry sig ι)) : Bus :=
  history.foldl (fun bus entry => bus.record sid entry.act) bus

theorem Bus.record_offBus {sid : String} {bus : Bus} {act : Act sig} (free : act.op ∈ offBus) :
    bus.record sid act = bus := by
  simp [Bus.record, numbered_offBus free, pushed_offBus free, fannedOut_offBus free]

theorem Plane.effect_bus {sid : String} {now : Nat} {handle : SessionHandle} (act : Act sig) :
    (Plane.effect act.op sid now handle).bus = handle.bus.record sid act := by
  obtain ⟨op, ans⟩ := act
  cases op
  case nextSeq target =>
    by_cases here : target = sid
    all_goals simp [Plane.effect, SessionHandle.bus, Bus.record, numbered, pushed, fannedOut, here]
  case pushRing target event =>
    by_cases here : target = sid
    all_goals simp [Plane.effect, SessionHandle.bus, Bus.record, numbered, pushed, fannedOut, here]
  case send target event =>
    by_cases here : target = sid
    all_goals simp [Plane.effect, SessionHandle.bus, Bus.record, numbered, pushed, fannedOut, here]
  all_goals
    refine Eq.trans ?_ (Bus.record_offBus ?_).symm
    · simp only [Plane.effect]
      try (split <;> rfl)
    · trivial

theorem Plane.exec_bus {op : Op} {choice : Choice} {plane after : Plane} {ans : op.Ans}
    (fires : plane.exec op choice = some (ans, after)) (sid : String) :
    after.bus sid = (plane.bus sid).record sid ⟨op, ans⟩ := by
  cases present : plane.handles sid with
  | some handle =>
    have kept := Plane.exec_keeps_handle fires present
    simp only [Plane.bus, present, kept]
    exact Plane.effect_bus ⟨op, ans⟩
  | none =>
    have still : after.bus sid = ⟨0, [], []⟩ := by
      cases found : after.handles sid with
      | none => simp [Plane.bus, found]
      | some handle =>
        obtain ⟨policy, client, _, rfl⟩ := Plane.exec_new_handle fires present found
        simp [Plane.bus, found, SessionHandle.bus, SessionHandle.attach]
    have empty : plane.bus sid = ⟨0, [], []⟩ := by simp [Plane.bus, present]
    rw [still, empty]
    cases op
    case nextSeq target =>
      have other : target ≠ sid := by
        rintro rfl
        simp [Plane.exec, present] at fires
      simp [Bus.record, numbered, pushed, fannedOut, other]
    case pushRing target event =>
      have other : target ≠ sid := by
        rintro rfl
        simp [Plane.exec, Plane.modify, present] at fires
      simp [Bus.record, numbered, pushed, fannedOut, other]
    case send target event =>
      have other : target ≠ sid := by
        rintro rfl
        simp [Plane.exec, Plane.modify, present] at fires
      simp [Bus.record, numbered, pushed, fannedOut, other]
    all_goals
      refine (Bus.record_offBus ?_).symm
      trivial

/-- A number is one more than the last one, within the width of the counter. -/
theorem Plane.exec_numbered {op : Op} {choice : Choice} {plane after : Plane} {ans : op.Ans}
    {sid : String} {seq : Nat} (fires : plane.exec op choice = some (ans, after))
    (takes : numbered sid ⟨op, ans⟩ = some seq) : seq = ((plane.bus sid).seq + 1) % u64Size := by
  cases op
  case nextSeq target =>
    simp only [numbered] at takes
    split at takes
    · rename_i here
      subst here
      obtain rfl := Option.some.inj takes
      simp only [Plane.exec] at fires
      split at fires
      · cases fires
      · rename_i handle found
        obtain ⟨rfl, _⟩ := Prod.mk.inj (Option.some.inj fires)
        simp [Plane.bus, found, SessionHandle.bus]
    · cases takes
  all_goals cases takes

section Along

variable {ι : Type} {sid : String} {bus : Bus} {history : List (Entry sig ι)}

theorem Bus.along_snoc (entry : Entry sig ι) :
    bus.along sid (history ++ [entry]) = (bus.along sid history).record sid entry.act := by
  simp [Bus.along]

theorem execution_bus {ok : machine.State → Entry sig ι → Prop} {before after : machine.State}
    (execution : Execution machine ok before history after) :
    Plane.bus after sid = (Plane.bus before sid).along sid history := by
  induction execution with
  | start => rfl
  | step earlier choice fires meets ih =>
    rw [Bus.along_snoc, ← ih]
    exact Plane.exec_bus fires sid

theorem Bus.along_sent : (bus.along sid history).sent = bus.sent ++ shown (fannedOut sid) history := by
  induction history using List.reverseRecOn with
  | nil => simp [Bus.along]
  | append_singleton history entry ih =>
    rw [Bus.along_snoc, shown_append, ← List.append_assoc, ← ih]
    cases sends : fannedOut sid entry.act
    all_goals simp [Bus.record, shown, sends]

theorem pushTrim_rtake (log : List StrategyEvent) (event : StrategyEvent) :
    pushTrim (log.rtake EVENT_RING_CAPACITY) event = (log ++ [event]).rtake EVENT_RING_CAPACITY := by
  have capacity : 0 < EVENT_RING_CAPACITY := by decide
  unfold pushTrim List.rtake
  split
  · rename_i full
    rw [List.length_drop] at full
    have next : (log ++ [event]).length - EVENT_RING_CAPACITY =
        log.length - EVENT_RING_CAPACITY + 1 := by
      rw [List.length_append, List.length_singleton]
      omega
    rw [next, List.drop_drop, List.drop_append_of_le_length (by omega)]
  · rename_i room
    rw [List.length_drop] at room
    have short : log.length - EVENT_RING_CAPACITY = 0 := by omega
    have shorter : (log ++ [event]).length - EVENT_RING_CAPACITY = 0 := by
      simp only [List.length_append, List.length_singleton]
      omega
    rw [short, shorter]
    simp

/-- The ring holds the newest of everything pushed to it. -/
theorem Bus.along_ring {log : List StrategyEvent} (starts : bus.ring = log.rtake EVENT_RING_CAPACITY) :
    (bus.along sid history).ring =
      (log ++ shown (pushed sid) history).rtake EVENT_RING_CAPACITY := by
  induction history using List.reverseRecOn with
  | nil => simpa [Bus.along] using starts
  | append_singleton history entry ih =>
    rw [Bus.along_snoc, shown_append, ← List.append_assoc]
    cases pushes : pushed sid entry.act with
    | none => simpa [Bus.record, shown, pushes] using ih
    | some event => simp [Bus.record, shown, pushes, ih, pushTrim_rtake]

/-- As long as the counter does not wrap, numbers count up from the last one. -/
theorem execution_numbers {ok : machine.State → Entry sig ι → Prop} {before after : machine.State}
    (execution : Execution machine ok before history after)
    (room : (Plane.bus before sid).seq + (shown (numbered sid) history).length < u64Size) :
    shown (numbered sid) history =
        List.range' ((Plane.bus before sid).seq + 1) (shown (numbered sid) history).length ∧
      (Plane.bus after sid).seq =
        (Plane.bus before sid).seq + (shown (numbered sid) history).length := by
  induction execution with
  | start => exact ⟨rfl, rfl⟩
  | @step history task op ans last after earlier choice fires meets ih =>
    rw [shown_append, List.length_append] at room
    obtain ⟨numbers, counter⟩ := ih (by omega)
    have recorded := Plane.exec_bus fires sid
    cases takes : numbered sid ⟨op, ans⟩ with
    | none =>
      have nothing : shown (numbered sid) [Entry.of task op ans] = [] := by simp [shown, takes]
      rw [shown_append, nothing, List.append_nil]
      exact ⟨numbers, by rw [recorded, ← counter]; simp [Bus.record, takes]⟩
    | some seq =>
      have one : shown (numbered sid) [Entry.of task op ans] = [seq] := by simp [shown, takes]
      have answered := Plane.exec_numbered fires takes
      rw [one, List.length_singleton] at room
      have unwrapped : ((Plane.bus last sid).seq + 1) % u64Size = (Plane.bus last sid).seq + 1 := by
        apply Nat.mod_eq_of_lt
        omega
      rw [shown_append, one, List.length_append, List.length_singleton]
      constructor
      · rw [List.range'_concat, ← numbers, answered, unwrapped, counter]
        congr 2
        omega
      · rw [recorded]
        simp only [Bus.record, takes, Option.isSome_some, if_true, unwrapped]
        omega

end Along

end LongTrader.Session
