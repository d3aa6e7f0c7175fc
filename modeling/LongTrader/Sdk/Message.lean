import LongTrader.Sdk.WireRoundTrip

/-! What the messages of the Go contract share: the interface they implement, the writes of a
`MarshalTo` and the cases of the switch in an `Unmarshal`, and how the one is read by the
other. -/

namespace LongTrader.Sdk

/-- `contract.Message`: what `MarshalTo` writes, and what `Unmarshal` leaves in a receiver that
it has replaced by the zero value first. -/
class Message (T : Type) where
  MarshalTo : T → List Write
  Unmarshal : Bytes → T × Option DecodeError

/-- `contract.Marshal`. -/
def Marshal {T : Type} [Message T] (m : T) : Bytes := encodeAll (Message.MarshalTo m)

/-- `Encoder.Message` of a pointer. -/
def Write.pointer {T : Type} [Message T] (num : Int64) : Option T → Write
  | none => .nilMessage num
  | some m => .message num (Message.MarshalTo m)

/-- `Encoder.Message` of the address of a value. -/
def Write.value {T : Type} [Message T] (num : Int64) (m : T) : Write := .message num (Message.MarshalTo m)

/-- A `map[string]string` with the order in which a range goes through it; nil is the empty
one. -/
structure StringMap where
  entries : List (Bytes × Bytes)
  distinct : (entries.map Prod.fst).Nodup
  deriving DecidableEq

def StringMap.empty : StringMap := ⟨[], .nil⟩

theorem keys_update (entries : List (Bytes × Bytes)) (k v : Bytes) :
    (entries.map fun entry => if entry.1 = k then (k, v) else entry).map Prod.fst =
      entries.map Prod.fst := by
  rw [List.map_map]
  apply List.map_congr_left
  intro entry _
  dsimp only [Function.comp_apply]
  split
  · exact Eq.symm ‹_›
  · rfl

/-- `m[k] = v`. -/
def StringMap.insert (k v : Bytes) (m : StringMap) : StringMap :=
  if fresh : k ∈ m.entries.map Prod.fst then
    ⟨m.entries.map fun entry => if entry.1 = k then (k, v) else entry, by
      rw [keys_update]
      exact m.distinct⟩
  else
    ⟨m.entries ++ [(k, v)], by
      rw [List.map_append]
      refine List.nodup_append.mpr ⟨m.distinct, by simp, ?_⟩
      intro key known other last same
      have new : other = k := List.mem_singleton.mp last
      exact fresh (new ▸ same ▸ known)⟩

theorem StringMap.insert_fresh {k v : Bytes} {m : StringMap} (fresh : k ∉ m.entries.map Prod.fst) :
    (m.insert k v).entries = m.entries ++ [(k, v)] := by
  rw [StringMap.insert, dif_neg fresh]

/-- Entries that are inserted in the order of a map make up that map. -/
theorem StringMap.foldl_insert (m : StringMap) :
    m.entries.foldl (fun read entry => read.insert entry.1 entry.2) .empty = m := by
  have all (more : List (Bytes × Bytes)) (read : StringMap)
      (distinct : ((read.entries ++ more).map Prod.fst).Nodup) :
      (more.foldl (fun read entry => read.insert entry.1 entry.2) read).entries =
        read.entries ++ more := by
    induction more generalizing read with
    | nil => exact (List.append_nil _).symm
    | cons entry more ih =>
      have fresh : entry.1 ∉ read.entries.map Prod.fst := by
        intro known
        rw [List.map_append] at distinct
        exact (List.nodup_append.mp distinct).2.2 _ known _ (List.mem_cons_self ..) rfl
      have inserted := insert_fresh (v := entry.2) fresh
      rw [List.foldl_cons, ih, inserted, List.append_assoc, List.singleton_append]
      rwa [inserted, List.append_assoc, List.singleton_append]
  have read := all m.entries .empty m.distinct
  cases m
  rw [StringMap.mk.injEq]
  exact read

/-- `contract.encodeMap`. -/
def encodeMap (num : Int64) (m : StringMap) : List Write :=
  m.entries.map fun (k, v) => .message num [.string 1 k, .string 2 v]

/-- What a case of the switch does with a field and the receiver. -/
abbrev Handler (T : Type) := Field → T → T × Option DecodeError

/-- The switch over the number of a field; the fields of other numbers are skipped. -/
def switch {T : Type} (cases : List (Int64 × Handler T)) : Handler T := fun f m =>
  match cases.lookup f.Number with
  | some handler => handler f m
  | none => (m, none)

section Handlers

variable {T α : Type}

/-- `m.X = f.AsX()`. -/
def assign (as : Field → α) (set : T → α → T) : Handler T := fun f m => (set m (as f), none)

/-- `contract.decodeSub`. -/
def decodeSub [Message α] (set : T → α → T) : Handler T := fun f m =>
  if f.Wire ≠ WireBytes then (m, none)
  else
    let (v, error) := Message.Unmarshal f.Data
    (set m v, error)

/-- `contract.decodeTime` and `contract.decodeDecimal`, which the other pointers repeat. -/
def decodePointer [Message α] (set : T → Option α → T) : Handler T := fun f m =>
  if f.Wire ≠ WireBytes then (m, none)
  else
    let (v, error) := Message.Unmarshal f.Data
    (set m (some v), error)

/-- `m.X = append(m.X, v)` for a new message `v` that could be decoded. -/
def appendMessage [Message α] (modify : (List (Option α) → List (Option α)) → T → T) : Handler T :=
  fun f m =>
    if f.Wire ≠ WireBytes then (m, none)
    else match Message.Unmarshal f.Data with
      | (_, some error) => (m, some error)
      | (v, none) => (modify (· ++ [some v]) m, none)

/-- `m.X = append(m.X, f.AsString())`. -/
def appendString (modify : (List Bytes → List Bytes) → T → T) : Handler T := fun f m =>
  if f.Wire = WireBytes then (modify (· ++ [f.AsString]) m, none) else (m, none)

/-- `v := f.AsString(); m.X = &v`. -/
def assignOptString (set : T → Option Bytes → T) : Handler T := fun f m =>
  if f.Wire = WireBytes then (set m (some f.AsString), none) else (m, none)

/-- The key and the value of a map entry. -/
def entryCases : List (Int64 × Handler (Bytes × Bytes)) :=
  [(1, assign Field.AsString fun kv k => (k, kv.2)),
   (2, assign Field.AsString fun kv v => (kv.1, v))]

/-- `contract.decodeMapEntry`. -/
def decodeMapEntry (want : Int64) (modify : (StringMap → StringMap) → T → T) : Handler T :=
  fun f m =>
    if f.Number ≠ want ∨ f.Wire ≠ WireBytes then (m, none)
    else match scan (switch entryCases) ([], []) f.Data with
      | (_, some error) => (m, some error)
      | ((k, v), none) => (modify (.insert k v) m, none)

end Handlers

/-- `Unmarshal` of a message: the receiver becomes the zero value, and each field is handed to
the switch. -/
def unmarshal {T : Type} (cases : List (Int64 × Handler T)) (zero : T) (data : Bytes) :
    T × Option DecodeError :=
  scan (switch cases) zero data

/-- Reading a sequence of writes takes the receiver from one value to another, whatever
follows. -/
def Reads {T : Type} (cases : List (Int64 × Handler T)) (before : T) (writes : List Write)
    (after : T) : Prop :=
  (∀ entry ∈ cases, Numbered entry.1) → ∀ rest, (encodeAll writes ++ rest).length < 2 ^ 63 →
    scan (switch cases) before (encodeAll writes ++ rest) = scan (switch cases) after rest

/-- The bytes of a message are decoded to it, or to what is left of it. -/
def Returns {T : Type} [Message T] (m back : T) : Prop :=
  (Marshal m).length < 2 ^ 63 → Message.Unmarshal (Marshal m) = (back, none)

/-- The messages of which nothing is lost. -/
class Faithful (T : Type) [Message T] : Prop where
  returns : ∀ m : T, Returns m m

theorem encodeAll_cons (write : Write) (rest : List Write) :
    encodeAll (write :: rest) = write.encode ++ encodeAll rest := by
  rw [encodeAll]

theorem encodeAll_append (writes more : List Write) :
    encodeAll (writes ++ more) = encodeAll writes ++ encodeAll more := by
  induction writes with
  | nil => rfl
  | cons write writes ih =>
    rw [List.cons_append, encodeAll_cons, encodeAll_cons, ih, List.append_assoc]

/-- The number that a write is given. -/
def Write.number : Write → Int64
  | .varint num _ | .int64 num _ | .int32 num _ | .uint64 num _ | .uint32 num _ | .bool num _
  | .string num _ | .optString num _ | .bytesField num _ | .fixed64 num _ | .fixed32 num _
  | .nilMessage num | .message num _ => num

theorem Write.number_of_field {write : Write} {f : Field} (present : write.field = some f) :
    f.Number = write.number := by
  cases write with
  | varint | int64 | int32 | uint64 | uint32 | bool | fixed64 | fixed32 =>
    obtain ⟨-, rfl⟩ := scalarField_eq_some.mp present
    rfl
  | string | bytesField =>
    obtain ⟨-, rfl⟩ := bytesField_eq_some.mp present
    rfl
  | optString num v =>
    obtain ⟨v, rfl, rfl⟩ := Option.map_eq_some_iff.mp present
    rfl
  | nilMessage => cases present
  | message =>
    obtain rfl := Option.some.inj present
    rfl

theorem numbers_sublist (writes : List Write) :
    ((writes.filterMap Write.field).map Field.Number).Sublist (writes.map Write.number) := by
  induction writes with
  | nil => exact .slnil
  | cons write writes ih =>
    cases present : write.field with
    | none =>
      rw [List.filterMap_cons_none present]
      exact ih.cons _
    | some f =>
      rw [List.filterMap_cons_some present, List.map_cons, List.map_cons, Write.number_of_field present]
      exact ih.cons_cons _

instance (num : Int64) : Decidable (Numbered num) := inferInstanceAs (Decidable (_ ∧ _))

theorem fieldPayload_data {num wire : Int64} {data rest : Bytes} {field : Field}
    (read : fieldPayload num wire data = .ok (field, rest)) : field.Data.length ≤ data.length := by
  unfold fieldPayload at read
  dsimp only at read
  repeat' split at read
  all_goals cases read
  all_goals simp only [List.length_take, List.length_drop, List.length_nil]
  all_goals omega

theorem nextField_data {data rest : Bytes} {field : Field}
    (read : nextField data = .ok (field, rest)) : field.Data.length ≤ data.length := by
  unfold nextField at read
  dsimp only at read
  split at read
  · cases read
  split at read
  · cases read
  have payload := fieldPayload_data read
  rw [List.length_drop] at payload
  omega

theorem numbered_of_lookup {T : Type} {cases : List (Int64 × Handler T)} {num : Int64}
    {handler : Handler T} (numbered : ∀ entry ∈ cases, Numbered entry.1)
    (found : cases.lookup num = some handler) : Numbered num := by
  induction cases with
  | nil => cases found
  | cons entry rest ih =>
    obtain ⟨number, first⟩ := entry
    rw [List.lookup_cons] at found
    split at found
    · rename_i same
      rw [beq_iff_eq.mp same]
      exact numbered _ (List.mem_cons_self ..)
    · exact ih (fun other member => numbered other (List.mem_cons_of_mem _ member)) found

namespace Reads

variable {T α : Type} {cases : List (Int64 × Handler T)} {s t u : T} {num : Int64}
variable {writes more : List Write}

theorem nil : Reads cases s [] s := fun _ _ _ => rfl

theorem append (first : Reads cases s writes t) (second : Reads cases t more u) :
    Reads cases s (writes ++ more) u := by
  intro numbered rest short
  rw [encodeAll_append, List.append_assoc] at short ⊢
  have shorter : (encodeAll more ++ rest).length < 2 ^ 63 := by
    rw [List.length_append] at short
    omega
  rw [first numbered _ short, second numbered rest shorter]

/-- A write that leaves no field. -/
theorem omitted {write : Write} (absent : write.field = none) : Reads cases s [write] s := by
  have encodes := write.encodes
  rw [absent] at encodes
  intro _ rest _
  rw [encodeAll_cons, show write.encode = [] from encodes]
  rfl

/-- A write that leaves a field, by what the switch does with it. -/
theorem switched {write : Write} {f : Field} (present : write.field = some f)
    (number : (∀ entry ∈ cases, Numbered entry.1) → Numbered f.Number)
    (read : f.Data.length < 2 ^ 63 → switch cases f s = (t, none)) : Reads cases s [write] t := by
  have encodes := write.encodes
  rw [present] at encodes
  intro numbered rest short
  have body : encodeAll [write] = write.encode := by
    rw [encodeAll_cons]
    exact List.append_nil _
  rw [body] at short ⊢
  have next := encodes (number numbered) rest short
  rw [scan_of_ok s next, read ((nextField_data next).trans_lt short)]

/-- A write that leaves a field which some case takes. -/
theorem taken {write : Write} {f : Field} {handler : Handler T} (present : write.field = some f)
    (found : cases.lookup f.Number = some handler)
    (taken : f.Data.length < 2 ^ 63 → handler f s = (t, none)) : Reads cases s [write] t := by
  refine switched present (fun numbered => numbered_of_lookup numbered found) fun short => ?_
  simp only [switch, found, taken short]

/-- A field that no case takes is skipped. -/
theorem skipped {write : Write} (num : Int64) (same : write.number = num) (numbered : Numbered num)
    (absent : cases.lookup num = none) : Reads cases s [write] s := by
  cases present : write.field with
  | none => exact omitted present
  | some f =>
    have number := (Write.number_of_field present).trans same
    refine switched present (fun _ => number ▸ numbered) fun _ => ?_
    simp only [switch, number, absent]

theorem cons {write : Write} (first : Reads cases s [write] t) (second : Reads cases t more u) :
    Reads cases s (write :: more) u :=
  first.append second

/-- A number is assigned, or was there already if it is omitted. -/
theorem scalar {write : Write} {raw : UInt64} {as : Field → α} {set : T → α → T} {v : α}
    (field : write.field = scalarField num WireVarint raw)
    (back : as ⟨num, WireVarint, raw, []⟩ = v)
    (found : cases.lookup num = some (assign as set))
    (blank : set s (as ⟨num, WireVarint, 0, []⟩) = s) : Reads cases s [write] (set s v) := by
  subst back
  by_cases zero : raw = 0
  · subst zero
    rw [blank]
    exact omitted field
  · refine taken (field.trans (if_neg zero)) found fun _ => rfl

theorem int64 {set : T → Int64 → T} {v : Int64}
    (found : cases.lookup num = some (assign Field.AsInt64 set)) (blank : set s 0 = s) :
    Reads cases s [.int64 num v] (set s v) :=
  scalar rfl (Int64.toInt64_toUInt64 v) found blank

theorem int32 {set : T → Int32 → T} {v : Int32}
    (found : cases.lookup num = some (assign Field.AsInt32 set)) (blank : set s 0 = s) :
    Reads cases s [.int32 num v] (set s v) :=
  scalar rfl (toInt32_extended v) found blank

theorem uint64 {set : T → UInt64 → T} {v : UInt64}
    (found : cases.lookup num = some (assign Field.AsUint64 set)) (blank : set s 0 = s) :
    Reads cases s [.uint64 num v] (set s v) :=
  scalar rfl rfl found blank

theorem uint32 {set : T → UInt32 → T} {v : UInt32}
    (found : cases.lookup num = some (assign Field.AsUint32 set)) (blank : set s 0 = s) :
    Reads cases s [.uint32 num v] (set s v) :=
  scalar rfl (UInt32.toUInt32_toUInt64 v) found blank

theorem bool {set : T → Bool → T} {v : Bool}
    (found : cases.lookup num = some (assign Field.AsBool set)) (blank : set s false = s) :
    Reads cases s [.bool num v] (set s v) :=
  scalar rfl (by cases v <;> rfl) found blank

theorem string {set : T → Bytes → T} {v : Bytes}
    (found : cases.lookup num = some (assign Field.AsString set)) (blank : set s [] = s) :
    Reads cases s [.string num v] (set s v) := by
  by_cases empty : v = []
  · subst empty
    rw [blank]
    exact omitted rfl
  · exact taken (if_neg empty) found fun _ => rfl

theorem optString {set : T → Option Bytes → T} {v : Option Bytes}
    (found : cases.lookup num = some (assignOptString set)) (blank : set s none = s) :
    Reads cases s [.optString num v] (set s v) := by
  cases v with
  | none =>
    rw [blank]
    exact omitted rfl
  | some v => exact taken rfl found fun _ => rfl

end Reads

namespace Reads

variable {T α : Type} {cases : List (Int64 × Handler T)} {s t u : T} {num : Int64}
variable [Message α]

theorem value [Faithful α] {set : T → α → T} {v : α} (found : cases.lookup num = some (decodeSub set)) :
    Reads cases s [.value num v] (set s v) := by
  refine taken rfl found fun short => ?_
  have read := Faithful.returns v short
  dsimp only [decodeSub]
  rw [if_neg (not_not.mpr rfl)]
  exact congrArg (fun result : α × Option DecodeError => (set s result.1, result.2)) read

theorem pointerBack {set : T → Option α → T} {v : Option α} {back : α → α}
    (returns : ∀ v : α, Returns v (back v)) (found : cases.lookup num = some (decodePointer set))
    (blank : set s none = s) : Reads cases s [.pointer num v] (set s (v.map back)) := by
  cases v with
  | none =>
    rw [Option.map_none, blank]
    exact omitted rfl
  | some v =>
    refine taken rfl found fun short => ?_
    have read := returns v short
    dsimp only [decodePointer]
    rw [if_neg (not_not.mpr rfl)]
    exact congrArg (fun result : α × Option DecodeError => (set s (some result.1), result.2)) read

theorem pointer [Faithful α] {set : T → Option α → T} {v : Option α}
    (found : cases.lookup num = some (decodePointer set)) (blank : set s none = s) :
    Reads cases s [.pointer num v] (set s v) := by
  have read : Reads cases s [.pointer num v] (set s (v.map id)) :=
    pointerBack Faithful.returns found blank
  rwa [Option.map_id_fun, id_eq] at read

/-- What a loop of writes is read to, from what each of them is. -/
theorem each {A B : Type} {write : A → Write} {put : B → T} {next : B → A → B}
    (step : ∀ b a, Reads cases (put b) [write a] (put (next b a))) (b : B) (elements : List A) :
    Reads cases (put b) (elements.map write) (put (elements.foldl next b)) := by
  induction elements generalizing b with
  | nil => exact nil
  | cons a elements ih => exact cons (step b a) (ih (next b a))

end Reads

theorem foldl_append_if {A : Type} (keep : A → Bool) (list elements : List A) :
    elements.foldl (fun list a => if keep a then list ++ [a] else list) list =
      list ++ elements.filter keep := by
  induction elements generalizing list with
  | nil => exact (List.append_nil list).symm
  | cons a elements ih =>
    rw [List.foldl_cons, ih, List.filter_cons]
    split
    · rw [List.append_assoc, List.singleton_append]
    · rfl

namespace Reads

variable {T α : Type} {cases : List (Int64 × Handler T)} {s t : T} {num : Int64}

/-- The empty elements of a repeated string are lost. -/
theorem strings {modify : (List Bytes → List Bytes) → T → T} {elements : List Bytes}
    (found : cases.lookup num = some (appendString modify))
    (clear : modify (fun _ => []) s = s)
    (again : ∀ update list, modify update (modify (fun _ => list) s) = modify (fun _ => update list) s)
    (kept : modify (fun _ => elements.filter (· ≠ [])) s = t) :
    Reads cases s (elements.map (.string num)) t := by
  have step : ∀ list v, Reads cases (modify (fun _ => list) s) [.string num v]
      (modify (fun _ => if decide (v ≠ []) then list ++ [v] else list) s) := by
    intro list v
    by_cases empty : v = []
    · subst empty
      exact omitted rfl
    · rw [if_pos (decide_eq_true empty)]
      refine taken (if_neg empty) found fun _ => ?_
      exact congrArg (·, none) (again (· ++ [v]) list)
  have read := each step [] elements
  rwa [foldl_append_if, List.nil_append, clear, kept] at read

/-- The nil elements of a repeated message are lost, whichever handler appends the others. -/
theorem messagesBy [Message α] [Faithful α] {handler : Handler T}
    {modify : (List (Option α) → List (Option α)) → T → T} {elements : List (Option α)}
    (found : cases.lookup num = some handler)
    (appends : ∀ f m, f.Number = num → handler f m = appendMessage modify f m)
    (clear : modify (fun _ => []) s = s)
    (again : ∀ update list, modify update (modify (fun _ => list) s) = modify (fun _ => update list) s)
    (kept : modify (fun _ => elements.filter Option.isSome) s = t) :
    Reads cases s (elements.map (.pointer num)) t := by
  have step : ∀ list v, Reads cases (modify (fun _ => list) s) [.pointer num v]
      (modify (fun _ => if v.isSome then list ++ [v] else list) s) := by
    intro list v
    cases v with
    | none => exact omitted rfl
    | some v =>
      refine taken rfl found fun short => ?_
      have read : Message.Unmarshal (encodeAll (Message.MarshalTo v)) = (v, none) :=
        Faithful.returns v short
      rw [appends _ _ rfl]
      dsimp only [appendMessage]
      rw [if_neg (not_not.mpr rfl), read]
      exact congrArg (·, none) (again (· ++ [some v]) list)
  have read := each step [] elements
  rwa [foldl_append_if, List.nil_append, clear, kept] at read

theorem messages [Message α] [Faithful α]
    {modify : (List (Option α) → List (Option α)) → T → T} {elements : List (Option α)}
    (found : cases.lookup num = some (appendMessage modify)) (clear : modify (fun _ => []) s = s)
    (again : ∀ update list, modify update (modify (fun _ => list) s) = modify (fun _ => update list) s)
    (kept : modify (fun _ => elements.filter Option.isSome) s = t) :
    Reads cases s (elements.map (.pointer num)) t :=
  messagesBy found (fun _ _ _ => rfl) clear again kept

/-- What is read from the zero value, when nothing follows. -/
theorem scan_eq {writes : List Write} {t : T} (numbered : ∀ entry ∈ cases, Numbered entry.1)
    (read : Reads cases s writes t) (short : (encodeAll writes).length < 2 ^ 63) :
    scan (switch cases) s (encodeAll writes) = (t, none) := by
  have whole := read numbered [] (by rwa [List.append_nil])
  rwa [List.append_nil, scan_nil] at whole

theorem entry_scan (k v : Bytes)
    (short : (encodeAll [.string 1 k, .string 2 v]).length < 2 ^ 63) :
    scan (switch entryCases) ([], []) (encodeAll [.string 1 k, .string 2 v]) = ((k, v), none) :=
  scan_eq (by decide) (.cons (.string rfl rfl) <| .cons (.string rfl rfl) .nil) short

theorem map {modify : (StringMap → StringMap) → T → T} {m : StringMap}
    (found : cases.lookup num = some (decodeMapEntry num modify))
    (clear : modify (fun _ => .empty) s = s)
    (again : ∀ update map, modify update (modify (fun _ => map) s) = modify (fun _ => update map) s)
    (whole : modify (fun _ => m) s = t) : Reads cases s (encodeMap num m) t := by
  have step : ∀ read (entry : Bytes × Bytes), Reads cases (modify (fun _ => read) s)
      [.message num [.string 1 entry.1, .string 2 entry.2]]
      (modify (fun _ => StringMap.insert entry.1 entry.2 read) s) := by
    intro read entry
    refine taken rfl found fun short => ?_
    have scanned := entry_scan entry.1 entry.2 short
    dsimp only [decodeMapEntry]
    rw [if_neg (by simp), scanned]
    exact congrArg (·, none) (again (StringMap.insert entry.1 entry.2) read)
  have read := each step .empty m.entries
  rwa [StringMap.foldl_insert, clear, whole] at read

end Reads

/-- A type of messages, and which of its values are decoded as they were. -/
structure MessageType where
  Carrier : Type
  [message : Message Carrier]
  Intact : Carrier → Prop

attribute [instance] MessageType.message

/-- A type of messages of which nothing is ever lost. -/
def MessageType.whole (T : Type) [Message T] : MessageType := ⟨T, fun _ => True⟩

def MessageType.RoundTrips (k : MessageType) : Prop :=
  ∀ m : k.Carrier, (Marshal m).length < 2 ^ 63 →
    (Message.Unmarshal (Marshal m) = (m, none) ↔ k.Intact m)

theorem roundTrips_whole {T : Type} [Message T] [Faithful T] : (MessageType.whole T).RoundTrips :=
  fun m short => iff_of_true (Faithful.returns (T := T) m short) trivial

theorem roundTrips_of_returns {T : Type} [Message T] {kept : T → T} {Intact : T → Prop}
    (returns : ∀ m, Returns m (kept m)) (whole : ∀ m, kept m = m ↔ Intact m) :
    (MessageType.mk T Intact).RoundTrips := by
  intro m short
  have read : Message.Unmarshal (Marshal m) = (kept m, none) := returns m short
  rw [read, Prod.mk.injEq, whole]
  exact and_iff_left rfl

theorem filter_isSome_eq_iff {α : Type} (elements : List (Option α)) :
    elements.filter Option.isSome = elements ↔ none ∉ elements := by
  rw [List.filter_eq_self]
  constructor
  · intro all absent
    cases all none absent
  · intro absent element member
    cases element with
    | none => exact absurd member absent
    | some _ => rfl

theorem filter_nonempty_eq_iff (elements : List Bytes) :
    elements.filter (· ≠ []) = elements ↔ [] ∉ elements := by
  rw [List.filter_eq_self]
  simp only [decide_eq_true_eq]
  constructor
  · exact fun all member => all [] member rfl
  · rintro absent _ member rfl
    exact absent member

end LongTrader.Sdk
