import LongTrader.Sdk.Message
import LongTrader.Sdk.WireGrammar

/-! What a switch over field numbers does with a field of another wire type than the declared
one: which cases look at the wire type, and what becomes of what the others assign. -/

namespace LongTrader.Sdk

section Cases

variable {T α : Type}

/-- A case that looks at the wire type before it touches the message. -/
class Checked (h : Handler T) : Prop where
  ignores : ∀ f m, f.Wire ≠ WireBytes → h f m = (m, none)

instance [Message α] (set : T → α → T) : Checked (decodeSub set) :=
  ⟨fun _ _ other => if_pos other⟩

instance [Message α] (set : T → Option α → T) : Checked (decodePointer set) :=
  ⟨fun _ _ other => if_pos other⟩

instance [Message α] (modify : (List (Option α) → List (Option α)) → T → T) :
    Checked (appendMessage modify) :=
  ⟨fun _ _ other => if_pos other⟩

instance (modify : (List Bytes → List Bytes) → T → T) : Checked (appendString modify) :=
  ⟨fun _ _ other => if_neg other⟩

instance (set : T → Option Bytes → T) : Checked (assignOptString set) :=
  ⟨fun _ _ other => if_neg other⟩

instance (want : Int64) (modify : (StringMap → StringMap) → T → T) :
    Checked (decodeMapEntry want modify) :=
  ⟨fun _ _ other => if_pos (.inr other)⟩

/-- What a case may do to a message, and which of it a field makes it do. -/
class Updates (h : Handler T) where
  Index : Type
  update : Index → T → T
  choice : Field → Option Index
  error : Field → Option DecodeError
  eq : ∀ f m, h f m = ((choice f).elim m (update · m), error f)

instance (as : Field → α) (set : T → α → T) : Updates (assign as set) where
  Index := α
  update a m := set m a
  choice f := some (as f)
  error _ := none
  eq _ _ := rfl

instance [Message α] (set : T → α → T) : Updates (decodeSub set) where
  Index := α
  update a m := set m a
  choice f := if f.Wire ≠ WireBytes then none else some (Message.Unmarshal f.Data).1
  error f := if f.Wire ≠ WireBytes then none else (Message.Unmarshal (T := α) f.Data).2
  eq f m := by
    unfold decodeSub
    split <;> rfl

instance [Message α] (set : T → Option α → T) : Updates (decodePointer set) where
  Index := α
  update a m := set m (some a)
  choice f := if f.Wire ≠ WireBytes then none else some (Message.Unmarshal f.Data).1
  error f := if f.Wire ≠ WireBytes then none else (Message.Unmarshal (T := α) f.Data).2
  eq f m := by
    unfold decodePointer
    split <;> rfl

instance [Message α] (modify : (List (Option α) → List (Option α)) → T → T) :
    Updates (appendMessage modify) where
  Index := α
  update a := modify (· ++ [some a])
  choice f := if f.Wire ≠ WireBytes then none
    else match Message.Unmarshal (T := α) f.Data with
      | (_, some _) => none
      | (v, none) => some v
  error f := if f.Wire ≠ WireBytes then none else (Message.Unmarshal (T := α) f.Data).2
  eq f m := by
    unfold appendMessage
    split
    · rfl
    · split <;> simp_all

instance (modify : (List Bytes → List Bytes) → T → T) : Updates (appendString modify) where
  Index := Bytes
  update v := modify (· ++ [v])
  choice f := if f.Wire = WireBytes then some f.AsString else none
  error _ := none
  eq f m := by
    unfold appendString
    split <;> rfl

instance (set : T → Option Bytes → T) : Updates (assignOptString set) where
  Index := Bytes
  update v m := set m (some v)
  choice f := if f.Wire = WireBytes then some f.AsString else none
  error _ := none
  eq f m := by
    unfold assignOptString
    split <;> rfl

instance (want : Int64) (modify : (StringMap → StringMap) → T → T) :
    Updates (decodeMapEntry want modify) where
  Index := Bytes × Bytes
  update entry := modify (.insert entry.1 entry.2)
  choice f := if f.Number ≠ want ∨ f.Wire ≠ WireBytes then none
    else match scan (switch entryCases) ([], []) f.Data with
      | (_, some _) => none
      | (entry, none) => some entry
  error f := if f.Number ≠ want ∨ f.Wire ≠ WireBytes then none
    else (scan (switch entryCases) ([], []) f.Data).2
  eq f m := by
    unfold decodeMapEntry
    split
    · rfl
    · split <;> simp_all

/-- A case that leaves alone what `set` assigns. -/
def Frames (set : T → α → T) (h : Handler T) : Prop :=
  ∀ f m a, h f (set m a) = (set (h f m).1 a, (h f m).2)

theorem frames_of_updates {set : T → α → T} {h : Handler T} [updates : Updates h]
    (apart : ∀ (i : Updates.Index h) m a, updates.update i (set m a) = set (updates.update i m) a) :
    Frames set h := by
  intro f m a
  rw [updates.eq f, updates.eq f]
  cases updates.choice f with
  | none => rfl
  | some i => exact congrArg (·, _) (apart i m a)

/-- What holds of the case of a number and of the declared wire type: it assigns a component of
its own, which a zero value leaves as it is in the zero message, or it looks at the wire type. -/
inductive Law (zero : T) (cases : List (Int64 × Handler T)) (num : Int64) : Handler T → Int64 → Prop where
  | assigned {α : Type} {as : Field → α} {set : T → α → T} {wire : Int64}
      (overwrites : ∀ m a b, set (set m a) b = set m b)
      (injective : ∀ m a b, set m a = set m b → a = b)
      (blank : set zero (as ⟨num, wire, 0, []⟩) = zero)
      (frames : ∀ other ∈ cases, other.1 ≠ num → Frames set other.2) :
      Law zero cases num (assign as set) wire
  | checked {h : Handler T} [checked : Checked h] : Law zero cases num h WireBytes

end Cases

section Switch

variable {T α : Type} {cases : List (Int64 × Handler T)} {num : Int64} {set : T → α → T}

theorem mem_of_lookup {h : Handler T} (found : cases.lookup num = some h) : (num, h) ∈ cases := by
  induction cases with
  | nil => cases found
  | cons entry rest ih =>
    obtain ⟨number, first⟩ := entry
    rw [List.lookup_cons] at found
    split at found
    · rename_i same
      obtain rfl := Option.some.inj found
      rw [beq_iff_eq.mp same]
      exact List.mem_cons_self ..
    · exact List.mem_cons_of_mem _ (ih found)

/-- The case of another number leaves the component alone. -/
theorem switch_frames (frames : ∀ other ∈ cases, other.1 ≠ num → Frames set other.2) {f : Field}
    (elsewhere : f.Number ≠ num) (m : T) (a : α) :
    switch cases f (set m a) = (set (switch cases f m).1 a, (switch cases f m).2) := by
  unfold switch
  cases found : cases.lookup f.Number with
  | none => rfl
  | some h => exact frames _ (mem_of_lookup found) elsewhere f m a

theorem feed_append {σ : Type} (fn : Field → σ → σ × Option DecodeError) (state : σ)
    (fields more : List Field) {after : σ} (fine : feed fn state fields none = (after, none))
    (error : Option DecodeError) :
    feed fn state (fields ++ more) error = feed fn after more error := by
  induction fields generalizing state with
  | nil =>
    rw [feed] at fine
    rw [List.nil_append, (Prod.mk.inj fine).1]
  | cons f fields ih =>
    rw [feed] at fine
    rw [List.cons_append, feed]
    cases called : fn f state with
    | mk next refused =>
      rw [called] at fine
      cases refused with
      | some refused => cases fine
      | none => exact ih next fine

/-- What was fed without an error was so up to any point. -/
theorem feed_split {σ : Type} {fn : Field → σ → σ × Option DecodeError} {state after : σ}
    {fields more : List Field} (fine : feed fn state (fields ++ more) none = (after, none)) :
    ∃ between, feed fn state fields none = (between, none) ∧
      feed fn between more none = (after, none) := by
  induction fields generalizing state with
  | nil => exact ⟨state, rfl, fine⟩
  | cons f fields ih =>
    rw [List.cons_append, feed] at fine
    rw [feed]
    cases called : fn f state with
    | mk next refused =>
      rw [called] at fine
      cases refused with
      | some refused => cases fine
      | none => exact ih fine

/-- The last field of a number, or a zero value of it. -/
def lastOf (num wire : Int64) (fields : List Field) : Field :=
  fields.foldl (fun last f => if f.Number = num then f else last) ⟨num, wire, 0, []⟩

variable {as : Field → α} (found : cases.lookup num = some (assign as set))

include found

theorem switch_assigned {f : Field} (same : f.Number = num) (m : T) :
    switch cases f m = (set m (as f), none) := by
  unfold switch
  rw [same, found]
  rfl

variable (frames : ∀ other ∈ cases, other.1 ≠ num → Frames set other.2)

include frames

omit found in
/-- Fields of other numbers leave the component alone. -/
theorem feed_frames {fields : List Field} (elsewhere : ∀ f ∈ fields, f.Number ≠ num) (m : T) (a : α) :
    feed (switch cases) (set m a) fields none =
      (set (feed (switch cases) m fields none).1 a, (feed (switch cases) m fields none).2) := by
  induction fields generalizing m with
  | nil => rfl
  | cons f fields ih =>
    have other := elsewhere f (List.mem_cons_self ..)
    rw [feed, feed, switch_frames frames other]
    cases called : switch cases f m with
    | mk next refused =>
      cases refused with
      | some refused => rfl
      | none => exact ih (fun later member => elsewhere later (List.mem_cons_of_mem _ member)) next

variable (overwrites : ∀ m a b, set (set m a) b = set m b)

include overwrites

/-- A later field of the number makes up for whatever was assigned. -/
theorem feed_overwritten {fields : List Field} (later : ∃ f ∈ fields, f.Number = num) {m after : T}
    (fine : feed (switch cases) m fields none = (after, none)) (a : α) :
    feed (switch cases) (set m a) fields none = (after, none) := by
  induction fields generalizing m with
  | nil =>
    obtain ⟨f, member, _⟩ := later
    cases member
  | cons f fields ih =>
    rw [feed] at fine ⊢
    by_cases same : f.Number = num
    · rw [switch_assigned found same] at fine ⊢
      rw [overwrites]
      exact fine
    · rw [switch_frames frames same]
      cases called : switch cases f m with
      | mk next refused =>
        rw [called] at fine
        cases refused with
        | some refused => cases fine
        | none =>
          obtain ⟨target, member, number⟩ := later
          refine ih ⟨target, ?_, number⟩ fine
          rcases List.mem_cons.mp member with rfl | member
          · exact absurd number same
          · exact member

/-- After some fields the component has the value of the last of its number. -/
theorem feed_last {fields : List Field} {last : Field} {m after : T} (held : set m (as last) = m)
    (fine : feed (switch cases) m fields none = (after, none)) :
    set after (as (fields.foldl (fun last f => if f.Number = num then f else last) last)) = after := by
  induction fields generalizing m last with
  | nil =>
    rw [feed] at fine
    rw [← (Prod.mk.inj fine).1]
    exact held
  | cons f fields ih =>
    rw [feed] at fine
    rw [List.foldl_cons]
    by_cases same : f.Number = num
    · rw [switch_assigned found same] at fine
      rw [if_pos same]
      exact ih (overwrites _ _ _) fine
    · rw [if_neg same]
      have kept := switch_frames frames same m (as last)
      rw [held] at kept
      cases called : switch cases f m with
      | mk next refused =>
        rw [called] at fine kept
        cases refused with
        | some refused => cases fine
        | none => exact ih (Prod.mk.inj kept).1.symm fine

end Switch

section Declared

/-- The wire type that a write uses. -/
def Write.wire : Write → Int64
  | .varint _ _ | .int64 _ _ | .int32 _ _ | .uint64 _ _ | .uint32 _ _ | .bool _ _ => WireVarint
  | .fixed64 _ _ => WireFixed64
  | .fixed32 _ _ => WireFixed32
  | .string _ _ | .optString _ _ | .bytesField _ _ | .nilMessage _ | .message _ _ => WireBytes

/-- Writes that use the declared wire types. -/
structure Written (wires : List (Int64 × Int64)) (writes : List Write) : Prop where
  each : ∀ write ∈ writes, wires.lookup write.number = some write.wire

namespace Written

variable {wires : List (Int64 × Int64)} {write : Write} {writes more : List Write}

theorem nil : Written wires [] := ⟨nofun⟩

theorem cons (first : wires.lookup write.number = some write.wire) (rest : Written wires writes) :
    Written wires (write :: writes) := by
  constructor
  intro other member
  rcases List.mem_cons.mp member with rfl | member
  · exact first
  · exact rest.each other member

theorem append (first : Written wires writes) (second : Written wires more) :
    Written wires (writes ++ more) := by
  constructor
  intro other member
  exact (List.mem_append.mp member).elim (first.each other) (second.each other)

theorem map {A : Type} {write : A → Write} {elements : List A}
    (each : ∀ a, wires.lookup (write a).number = some (write a).wire) :
    Written wires (elements.map write) := by
  constructor
  intro other member
  obtain ⟨a, _, rfl⟩ := List.mem_map.mp member
  exact each a

end Written

theorem Write.pointer_number {T : Type} [Message T] (num : Int64) (m : Option T) :
    (Write.pointer num m).number = num := by
  cases m <;> rfl

theorem Write.pointer_wire {T : Type} [Message T] (num : Int64) (m : Option T) :
    (Write.pointer num m).wire = WireBytes := by
  cases m <;> rfl

/-- A type of messages, the switch of its `Unmarshal`, and the wire types of its fields: those
that its `MarshalTo` writes. -/
structure Declaration where
  Carrier : Type
  [message : Message Carrier]
  zero : Carrier
  cases : List (Int64 × Handler Carrier)
  wires : List (Int64 × Int64)
  decodes : ∀ data, Message.Unmarshal (T := Carrier) data = unmarshal cases zero data := by
    exact fun _ => rfl
  written : ∀ m : Carrier, Written wires (Message.MarshalTo m) := by
    intro m
    repeat' first
      | exact .nil
      | apply Written.cons
      | apply Written.append
      | apply Written.map
    all_goals
      try intro element
      first
        | rfl
        | (rw [Write.pointer_number, Write.pointer_wire]; rfl)
  lawful : List.Forall₂ (fun entry wire => entry.1 = wire.1 ∧ Law zero cases entry.1 entry.2 wire.2)
      cases wires := by
    repeat' apply List.Forall₂.cons
    all_goals try exact .nil
    all_goals refine ⟨rfl, ?_⟩
    all_goals dsimp only
    all_goals first
      | exact .checked
      | apply Law.assigned
    -- the component that is assigned
    all_goals first
      | exact rfl
      | exact fun _ _ _ => rfl
      | (intro m a b same; cases same; rfl)
      | rw [← List.forall_iff_forall_mem]
    -- the other cases leave it alone
    all_goals repeat' apply And.intro
    all_goals first
      | exact fun _ => frames_of_updates fun _ _ _ => rfl
      | exact fun differs => absurd rfl differs
      | exact trivial

attribute [instance] Declaration.message

namespace Declaration

variable (k : Declaration)

theorem law {num wire : Int64} (declared : k.wires.lookup num = some wire) :
    ∃ h, k.cases.lookup num = some h ∧ Law k.zero k.cases num h wire := by
  have lawful := k.lawful
  generalize k.zero = zero, k.cases = all at lawful ⊢
  suffices search : ∀ cases wires, List.Forall₂
      (fun entry wire => entry.1 = wire.1 ∧ Law zero all entry.1 entry.2 wire.2) cases wires →
      wires.lookup num = some wire → ∃ h, cases.lookup num = some h ∧ Law zero all num h wire from
    search all k.wires lawful declared
  intro cases wires laws
  induction laws with
  | nil => nofun
  | @cons entry declaration cases wires first _ ih =>
    obtain ⟨number, h⟩ := entry
    obtain ⟨number', wire'⟩ := declaration
    obtain ⟨rfl, law⟩ := first
    rw [List.lookup_cons, List.lookup_cons]
    intro found
    split at found
    · rename_i same
      obtain rfl := Option.some.inj found
      rw [same, beq_iff_eq.mp same]
      exact ⟨h, rfl, law⟩
    · rename_i other
      rw [other]
      exact ih found

/-- A field that changes nothing where it is inserted: its case skips it, or a later field of
its number follows, or the case reads it like the last earlier one of its number, or like a
zero value if there is none. -/
def Harmless (f : Field) (wire : Int64) (before after : List Field) : Prop :=
  (∀ m, switch k.cases f m = (m, none)) ∨ (∃ later ∈ after, later.Number = f.Number) ∨
    ∀ m, switch k.cases f m = switch k.cases (lastOf f.Number wire before) m

theorem lastOf_number (num wire : Int64) (fields : List Field) :
    (lastOf num wire fields).Number = num := by
  unfold lastOf
  have start : (⟨num, wire, 0, []⟩ : Field).Number = num := rfl
  generalize (⟨num, wire, 0, []⟩ : Field) = last at start ⊢
  induction fields generalizing last with
  | nil => exact start
  | cons f fields ih =>
    rw [List.foldl_cons]
    apply ih
    split
    · assumption
    · exact start

/-- What an inserted field of another wire type than the declared one does to the fields of a
message. -/
theorem feed_mistyped_iff {f : Field} {wire : Int64} {before after : List Field} {m : k.Carrier}
    (declared : k.wires.lookup f.Number = some wire) (mistyped : f.Wire ≠ wire)
    (fine : feed (switch k.cases) k.zero (before ++ after) none = (m, none)) :
    feed (switch k.cases) k.zero (before ++ f :: after) none = (m, none) ↔
      k.Harmless f wire before after := by
  obtain ⟨between, first, second⟩ := feed_split fine
  obtain ⟨h, found, law⟩ := k.law declared
  rw [feed_append _ _ _ _ first, feed]
  generalize number : f.Number = num at *
  cases law with
  | checked =>
    have skipped : ∀ m, switch k.cases f m = (m, none) := by
      intro m
      unfold switch
      rw [number, found]
      exact Checked.ignores f m mistyped
    rw [skipped between]
    exact iff_of_true second (.inl skipped)
  | @assigned α as set wire overwrites injective blank frames =>
    have last := feed_last found frames overwrites blank first
    have sameLast := lastOf_number num wire before
    rw [switch_assigned found number]
    dsimp only
    by_cases later : ∃ later ∈ after, later.Number = num
    · rw [feed_overwritten found frames overwrites later second]
      exact iff_of_true rfl (.inr (.inl (by rwa [number])))
    · have elsewhere : ∀ later ∈ after, later.Number ≠ num :=
        fun other member same => later ⟨other, member, same⟩
      have kept := feed_frames frames elsewhere between (as (lastOf num wire before))
      have inserted := feed_frames frames elsewhere between (as f)
      rw [show set between (as (lastOf num wire before)) = between from last, second] at kept
      rw [second] at inserted
      have held : set m (as (lastOf num wire before)) = m := (Prod.mk.inj kept).1.symm
      rw [inserted]
      constructor
      · intro same
        have value := injective m _ _ ((Prod.mk.inj same).1.trans held.symm)
        refine .inr (.inr fun other => ?_)
        rw [number, switch_assigned found number, switch_assigned found sameLast, value]
      · rintro (skipped | follows | alike)
        · rw [← switch_assigned found number, skipped]
        · exact absurd (by rwa [number] at follows) later
        · have same := alike m
          rw [number, switch_assigned found number, switch_assigned found sameLast, held] at same
          exact same

/-- A message is decoded by feeding its fields to the switch. -/
theorem unmarshal_fields {data : Bytes} {fields : List Field} (formed : WellFormed data fields)
    (bound : data.length < 2 ^ 63) :
    Message.Unmarshal (T := k.Carrier) data = feed (switch k.cases) k.zero fields none := by
  rw [k.decodes, unmarshal, scan_feed, fieldsOf_wellFormed formed bound]

/-- What an inserted field of another wire type than the declared one does to a message. -/
theorem unmarshal_mistyped_iff {front extra back : Bytes} {before after : List Field} {f : Field}
    {wire : Int64} {m : k.Carrier} (head : WellFormed front before) (tail : WellFormed back after)
    (field : WireField extra f) (bound : (front ++ (extra ++ back)).length < 2 ^ 63)
    (decoded : Message.Unmarshal (front ++ back) = (m, none))
    (declared : k.wires.lookup f.Number = some wire) (mistyped : f.Wire ≠ wire) :
    Message.Unmarshal (front ++ (extra ++ back)) = (m, none) ↔ k.Harmless f wire before after := by
  have shorter : (front ++ back).length < 2 ^ 63 := by
    simp only [List.length_append] at bound ⊢
    omega
  rw [k.unmarshal_fields (head.append tail) shorter] at decoded
  rw [k.unmarshal_fields (head.append (.cons field tail)) bound]
  exact k.feed_mistyped_iff declared mistyped decoded

end Declaration

end Declared

end LongTrader.Sdk
