import LongTrader.Interleave.Alone
import LongTrader.Storage.Replace

/-! The state files of the strategies: a document is saved beside its file, synced and renamed into
place, so that a crash never leaves half of one. -/

namespace LongTrader.StateStore

open Interleave Storage

/-- What a save fails with, at each of its steps. -/
inductive SaveError where
  | create (error : IoError)
  | serialize (reason : String)
  | write (error : IoError)
  | openFile (error : IoError)
  | fsync (error : IoError)
  | rename (error : IoError)
  deriving DecidableEq, Repr

inductive LoadError where
  | deserialize (reason : String)
  | read (error : IoError)
  deriving DecidableEq, Repr

/-- How documents are written and read: `serde_json::to_string_pretty`, `serde_json::from_str`, and
whether bytes are text at all. -/
structure Codec (V β : Type) where
  toStringPretty : V → Except String (List β)
  fromStr : List β → Except String V
  isUtf8 : List β → Bool

/-- The file that a save writes first. -/
def tmp (fileName : String) : String := fileName ++ ".tmp"

variable {V β : Type}

abbrev Task (β α : Type) := Proc (sig String β) α

abbrev perform (op : Op String β) : Task β (Op.Ans op) := @Proc.perform (sig String β) op

/-- `StateStore::save`. -/
def save (codec : Codec V β) (fileName : String) (state : V) : Task β (Except SaveError Unit) := do
  match ← perform .createDirAll with
  | .error error => return .error (.create error)
  | .ok () =>
    match codec.toStringPretty state with
    | .error reason => return .error (.serialize reason)
    | .ok json =>
      match ← perform (.create (tmp fileName)) with
      | .error error => return .error (.write error)
      | .ok inode =>
        match ← perform (.writeAll inode json) with
        | .error error => return .error (.write error)
        | .ok () =>
          match ← perform (.openFile (tmp fileName)) with
          | .error error => return .error (.openFile error)
          | .ok inode =>
            match ← perform (.syncAll inode) with
            | .error error => return .error (.fsync error)
            | .ok () =>
              match ← perform (.rename (tmp fileName) fileName) with
              | .error error => return .error (.rename error)
              | .ok () =>
                -- the directory is synced at best effort
                match ← perform .openDir with
                | .error _ => return .ok ()
                | .ok () =>
                  let _ ← perform .syncDir
                  return .ok ()

/-- What `StateStore::load` makes of the answer to its read. -/
def loaded (codec : Codec V β) : Except IoError (List β) → Except LoadError (Option V)
  | .ok bytes =>
    if codec.isUtf8 bytes then
      match codec.fromStr bytes with
      | .ok state => .ok (some state)
      | .error reason => .error (.deserialize reason)
    else .error (.read (.other "stream did not contain valid UTF-8"))
  | .error .notFound => .ok none
  | .error error => .error (.read error)

/-- `StateStore::load`. -/
def load (codec : Codec V β) (fileName : String) : Task β (Except LoadError (Option V)) := do
  return loaded codec (← perform (.read fileName))

/-- What a strategy asks of its store. -/
inductive Request (V : Type) where
  | save (state : V)
  | load

inductive Reply (V : Type) where
  | saved (answer : Except SaveError Unit)
  | loaded (answer : Except LoadError (Option V))

/-- A strategy that uses its store, one request after another. -/
def serve (codec : Codec V β) (fileName : String) : List (Request V) → Task β (List (Reply V))
  | [] => return []
  | .save state :: rest => do
    let answer ← save codec fileName state
    return .saved answer :: (← serve codec fileName rest)
  | .load :: rest => do
    let answer ← load codec fileName
    return .loaded answer :: (← serve codec fileName rest)

/-- The texts of the documents that are to be saved. -/
def texts (codec : Codec V β) (requests : List (Request V)) : Set (List β) :=
  {text | ∃ state, .save state ∈ requests ∧ codec.toStringPretty state = .ok text}

section Permitted

variable {ι : Type} {codec : Codec V β} {names : ι → String} {written : ι → Set (List β)} {task : ι}

/-- A store replaces its own file, by way of the file that is named for it. -/
abbrev Replaces {α : Type} (names : ι → String) (written : ι → Set (List β)) (task : ι)
    (past : List (Act (sig String β))) (program : Task β α) : Prop :=
  program.Justifies (permits names (fun task => tmp (names task)) written task) past

theorem save_replaces {state : V}
    (own : ∀ json, codec.toStringPretty state = .ok json → json ∈ written task)
    (past : List (Act (sig String β))) :
    Replaces names written task past (save codec (names task) state) := by
  unfold save
  refine .act (fun _ => trivial) fun made => ?_
  cases made with
  | error => trivial
  | ok =>
    cases pretty : codec.toStringPretty state with
    | error => trivial
    | ok json =>
      refine .act (fun _ => rfl) fun created => ?_
      cases created with
      | error => trivial
      | ok inode =>
        refine .act (fun _ => ⟨Stage.after_snoc .., own json pretty⟩) fun wrote => ?_
        cases wrote with
        | error => trivial
        | ok =>
          refine .act (fun _ => rfl) fun opened => ?_
          cases opened with
          | error => trivial
          | ok handle =>
            refine .act (fun _ => ⟨json, ?_⟩) fun synced => ?_
            · simp only [Stage.after_snoc, Stage.advance]
            · cases synced with
              | error => trivial
              | ok =>
                refine .act (fun _ => ⟨rfl, rfl, json, ?_⟩) fun moved => ?_
                · simp only [Stage.after_snoc, Stage.advance]
                · cases moved with
                  | error => trivial
                  | ok =>
                    refine .act (fun _ => trivial) fun found => ?_
                    cases found with
                    | error => trivial
                    | ok => exact .act (fun _ => trivial) fun _ => trivial

theorem serve_replaces (names : ι → String) (task : ι) {requests : List (Request V)} (own : texts codec requests ⊆ written task)
    (past : List (Act (sig String β))) :
    Replaces names written task past (serve codec (names task) requests) := by
  induction requests generalizing past with
  | nil => trivial
  | cons request rest ih =>
    have later : texts codec rest ⊆ written task := by
      rintro text ⟨state, member, pretty⟩
      exact own ⟨state, List.mem_cons_of_mem _ member, pretty⟩
    cases request with
    | save state =>
      refine .bind (save_replaces (fun json pretty => ?_) past) fun acts _ _ => ?_
      · exact own ⟨state, List.mem_cons_self .., pretty⟩
      · exact (ih later _).bind fun _ _ _ => trivial
    | load =>
      refine .bind (.act (fun _ => trivial) fun _ => trivial) fun acts _ _ => ?_
      exact (ih later _).bind fun _ _ _ => trivial

end Permitted

section Crash

variable {ι : Type}

/-- No store has the name of another one, or of the file that another one writes first. -/
def Apart (names : ι → String) : Prop :=
  ∀ task other, task ≠ other → names task ≠ names other ∧ tmp (names task) ≠ names other

theorem tmp_injective {one two : String} (same : tmp one = tmp two) : one = two := by
  have chars := congrArg String.toList same
  rw [tmp, tmp, String.toList_append, String.toList_append] at chars
  exact String.toList_inj.mp (List.append_cancel_right chars)

theorem tmp_ne (fileName : String) : tmp fileName ≠ fileName := by
  intro same
  have sizes := congrArg String.length same
  have suffix : ".tmp".length = 4 := by decide
  rw [tmp, String.length_append] at sizes
  omega

theorem Apart.separate {names : ι → String} (apart : Apart names) :
    Separate names fun task => tmp (names task) := by
  have paths : Function.Injective names := by
    intro task other same
    by_contra different
    exact (apart task other different).1 same
  refine ⟨paths, fun task other same => paths (tmp_injective same), fun task other => ?_⟩
  by_cases same : task = other
  · subst same
    exact tmp_ne _
  · exact (apart task other same).2

/-- The stores of one directory, each with what its strategy asks of it. -/
def pool (codec : Codec V β) (names : ι → String) (requests : ι → List (Request V)) (disk : Disk String β) :
    Config (machine String β) ι (List (Reply V)) :=
  ⟨disk, fun task => serve codec (names task) (requests task)⟩

/-- What a file with this text reads as. -/
def reads (codec : Codec V β) (text : Option (List β)) : Except LoadError (Option V) :=
  loaded codec (text.elim (.error .notFound) .ok)

/-- What a load of a file answers when no operation fails. -/
def document (codec : Codec V β) (disk : Disk String β) (fileName : String) : Except LoadError (Option V) :=
  reads codec (disk.read fileName)

/-- A document that is written can be read: `serde_json` round trips. -/
def Codec.RoundTrips (codec : Codec V β) : Prop :=
  ∀ state text, codec.toStringPretty state = .ok text →
    codec.isUtf8 text = true ∧ codec.fromStr text = .ok state

theorem reads_text {codec : Codec V β} (roundTrips : codec.RoundTrips) {state : V} {text : List β}
    (pretty : codec.toStringPretty state = .ok text) : reads codec (some text) = .ok (some state) := by
  obtain ⟨utf8, parses⟩ := roundTrips state text pretty
  simp only [reads, loaded, Option.elim_some, utf8, if_true, parses]

/-- The boots of a machine that crashes again and again, with the documents that have been saved by
each of the stores. In every boot the strategies ask what they like, and a crash comes at any point. -/
inductive Boots [DecidableEq ι] (codec : Codec V β) (names : ι → String) (first : Disk String β) :
    (ι → Set V) → Disk String β → Prop where
  | first : Boots codec names first (fun _ => ∅) first
  | crash {saved : ι → Set V} {disk : Disk String β} {requests : ι → List (Request V)}
      {history : List (Entry (sig String β) ι)}
      {config : Config (machine String β) ι (List (Reply V))} {directory : String → Option Nat}
      (earlier : Boots codec names first saved disk)
      (run : Run (pool codec names requests disk) history config)
      (survives : directory ∈ config.state.directories) (found : Nat → List β) :
      Boots codec names first (fun task => saved task ∪ {state | .save state ∈ requests task})
        (config.state.recover directory found)

variable [DecidableEq ι] {codec : Codec V β} {names : ι → String} {requests : ι → List (Request V)}
  {disk : Disk String β} {history : List (Entry (sig String β) ι)}
  {config : Config (machine String β) ι (List (Reply V))}

omit [DecidableEq ι] in
theorem pool_replaces (codec : Codec V β) (names : ι → String) (requests : ι → List (Request V))
    (disk : Disk String β) (task : ι) :
    Replaces names (fun task => texts codec (requests task)) task []
      ((pool codec names requests disk).procs task) :=
  serve_replaces names task (Set.Subset.refl _) []

theorem pool_tracks (apart : Apart names) (settled : Settled (fun task => tmp (names task)) disk)
    (run : Run (pool codec names requests disk) history config) :
    Tracks names (fun task => tmp (names task)) config.state
      (watched (fun task => disk.read (names task)) history) :=
  tracks_of_run apart.separate settled (pool_replaces codec names requests disk) run

omit [DecidableEq ι] in
/-- One of the texts that a file may hold is the document that it held, or one that has been saved. -/
theorem document_of_within (roundTrips : codec.RoundTrips) {register : Register β} {task : ι}
    (within : register.Within (disk.read (names task)) (texts codec (requests task)))
    {later : Disk String β} (member : later.read (names task) ∈ register.current :: register.possible) :
    document codec later (names task) = document codec disk (names task) ∨
      ∃ state, .save state ∈ requests task ∧ document codec later (names task) = .ok (some state) := by
  rcases within _ member with same | ⟨text, ⟨state, asked, pretty⟩, holds⟩
  · left
    rw [document, document, same]
  · right
    refine ⟨state, asked, ?_⟩
    rw [document, holds]
    exact reads_text roundTrips pretty

/-- A store whose documents are single numbers. -/
def numberCodec : Codec Nat Nat where
  toStringPretty state := .ok [state]
  fromStr
    | [state] => .ok state
    | _ => .error "expected value"
  isUtf8 _ := true

theorem numberCodec_roundTrips : numberCodec.RoundTrips := by
  intro state text pretty
  obtain rfl := Except.ok.inj pretty
  exact ⟨rfl, rfl⟩

/-- The state file of one grid. -/
def gridFile : Unit → String := fun _ => "grid.json"

theorem gridFile_apart : Apart gridFile := fun _ _ different => absurd rfl different

/-- The grid saves once, and every operation goes through. -/
theorem exists_boot : ∃ history config, Run (pool numberCodec gridFile (fun _ => [.save 7]) .empty) history
    config ∧ history = history.take 7 ++ [dirSynced ()] ∧ config.procs () = .done [.saved (.ok ())] := by
  have followed : replay (pool numberCodec gridFile (fun _ => [.save 7]) .empty)
      (List.replicate 8 ((), .fair)) = some (_, _) := rfl
  exact ⟨_, _, .of_replay followed, rfl, rfl⟩

/-- Whatever fails, however the saves of the stores interleave and wherever the crashes come: a store
finds the document that it held at first, or one that its strategy has saved, and never a part of one. -/
theorem document_survives_crashes (apart : Apart names) (roundTrips : codec.RoundTrips) {first last : Disk String β}
    (settled : Settled (fun task => tmp (names task)) first) {saved : ι → Set V}
    (boots : Boots codec names first saved last) :
    Settled (fun task => tmp (names task)) last ∧ ∀ task,
      document codec last (names task) = document codec first (names task) ∨
        ∃ state ∈ saved task, document codec last (names task) = .ok (some state) := by
  induction boots with
  | first => exact ⟨settled, fun _ => .inl rfl⟩
  | @crash saved disk requests history config directory earlier run survives found ih =>
    have tracks := pool_tracks apart ih.1 run
    have within := within_of_run (fun task => disk.read (names task))
      (pool_replaces codec names requests disk) run
    obtain ⟨again, back⟩ := tracks.kept.recover survives found
    refine ⟨again, fun task => ?_⟩
    rcases document_of_within roundTrips (within.registers task) (List.mem_cons_of_mem _ (back task)) with
      same | ⟨state, asked, holds⟩
    · rw [same]
      rcases ih.2 task with old | ⟨state, member, holds⟩
      · exact .inl old
      · exact .inr ⟨state, .inl member, holds⟩
    · exact .inr ⟨state, .inr asked, holds⟩

theorem grid_document_survives_crashes : ∃ saved last, Boots numberCodec gridFile .empty saved last ∧
    (document numberCodec last "grid.json" = .ok none ∨
      ∃ state ∈ saved (), document numberCodec last "grid.json" = .ok (some state)) := by
  obtain ⟨history, config, run, _⟩ := exists_boot
  have boots := Boots.crash .first run (entries_mem _) fun _ => []
  exact ⟨_, _, boots,
    (document_survives_crashes gridFile_apart numberCodec_roundTrips (.empty _) boots).2 ()⟩

/-- From the next sync of the directory on, whichever store has made it, a document that is not
replaced survives a crash. -/
theorem synced_document_survives (apart : Apart names)
    (settled : Settled (fun task => tmp (names task)) disk)
    (run : Run (pool codec names requests disk) history config)
    {earlier later : List (Entry (sig String β) ι)} {syncer task : ι}
    (synced : history = earlier ++ dirSynced syncer :: later)
    (unreplaced : ∀ source target, renamed task source target ∉ later)
    {directory : String → Option Nat} (survives : directory ∈ config.state.directories)
    (found : Nat → List β) :
    document codec (config.state.recover directory found) (names task) =
      document codec config.state (names task) := by
  have tracks := pool_tracks apart settled run
  have safe := watched_settled (fun task => disk.read (names task)) earlier later syncer unreplaced
  rw [← synced] at safe
  have back := (tracks.kept.recover survives found).2 task
  rw [safe] at back
  have same : (config.state.recover directory found).read (names task) = config.state.read (names task) :=
    (List.mem_singleton.mp back).trans (tracks.kept.current task).symm
  rw [document, document, same]

theorem synced_grid_document_survives : ∃ history config,
    Run (pool numberCodec gridFile (fun _ => [.save 7]) .empty) history config ∧
      document numberCodec (config.state.recover config.state.entries fun _ => []) (gridFile ()) =
        document numberCodec config.state (gridFile ()) := by
  obtain ⟨history, config, run, synced, _⟩ := exists_boot
  refine ⟨history, config, run, ?_⟩
  apply synced_document_survives gridFile_apart (.empty _) run synced
  · exact fun _ _ => List.not_mem_nil
  · exact entries_mem _

end Crash

section Replies

variable {codec : Codec V β}

/-- The document of the last save that has succeeded, or the one from before. -/
def lastSaved : List (Request V) → List (Reply V) → Except LoadError (Option V) →
    Except LoadError (Option V)
  | .save state :: requests, .saved (.ok ()) :: replies, _ => lastSaved requests replies (.ok (some state))
  | _ :: requests, _ :: replies, before => lastSaved requests replies before
  | _, _, before => before

/-- A save that succeeds puts its document into the file, and one that fails leaves the file. -/
theorem save_lands (roundTrips : codec.RoundTrips) {fileName : String} {state : V}
    {acts : List (Act (sig String β))} {answer : Except SaveError Unit}
    (finishes : (save codec fileName state).Completes acts answer)
    (progress : Stage β × Option (List β)) :
    (answer = .ok () ∧ reads codec (acts.foldl land progress).2 = .ok (some state)) ∨
      (answer ≠ .ok () ∧ (acts.foldl land progress).2 = progress.2) := by
  unfold save at finishes
  obtain ⟨made, rest, rfl, making⟩ := Proc.completes_perform_bind.mp finishes
  clear finishes
  cases made with
  | error error =>
    obtain ⟨rfl, rfl⟩ := making
    exact .inr ⟨nofun, rfl⟩
  | ok =>
    cases pretty : codec.toStringPretty state with
    | error reason =>
      rw [pretty] at making
      obtain ⟨rfl, rfl⟩ := making
      exact .inr ⟨nofun, rfl⟩
    | ok json =>
      rw [pretty] at making
      obtain ⟨created, rest, rfl, creating⟩ := Proc.completes_perform_bind.mp making
      clear making
      cases created with
      | error error =>
        obtain ⟨rfl, rfl⟩ := creating
        exact .inr ⟨nofun, rfl⟩
      | ok inode =>
        obtain ⟨wrote, rest, rfl, writing⟩ := Proc.completes_perform_bind.mp creating
        clear creating
        cases wrote with
        | error error =>
          obtain ⟨rfl, rfl⟩ := writing
          exact .inr ⟨nofun, rfl⟩
        | ok =>
          obtain ⟨opened, rest, rfl, opening⟩ := Proc.completes_perform_bind.mp writing
          clear writing
          cases opened with
          | error error =>
            obtain ⟨rfl, rfl⟩ := opening
            exact .inr ⟨nofun, rfl⟩
          | ok handle =>
            obtain ⟨synced, rest, rfl, syncing⟩ := Proc.completes_perform_bind.mp opening
            clear opening
            cases synced with
            | error error =>
              obtain ⟨rfl, rfl⟩ := syncing
              exact .inr ⟨nofun, rfl⟩
            | ok =>
              obtain ⟨moved, rest, rfl, moving⟩ := Proc.completes_perform_bind.mp syncing
              clear syncing
              cases moved with
              | error error =>
                obtain ⟨rfl, rfl⟩ := moving
                exact .inr ⟨nofun, rfl⟩
              | ok =>
                -- the renaming has put the text into the file, whatever becomes of the directory
                have put := reads_text roundTrips pretty
                obtain ⟨found, rest, rfl, finding⟩ := Proc.completes_perform_bind.mp moving
                clear moving
                cases found with
                | error error =>
                  obtain ⟨rfl, rfl⟩ := finding
                  exact .inl ⟨rfl, put⟩
                | ok =>
                  obtain ⟨closed, rest, rfl, rfl, rfl⟩ := Proc.completes_perform_bind.mp finding
                  exact .inl ⟨rfl, put⟩

theorem serve_lands (roundTrips : codec.RoundTrips) {fileName : String} {requests : List (Request V)}
    {acts : List (Act (sig String β))} {replies : List (Reply V)}
    (finishes : (serve codec fileName requests).Completes acts replies)
    (progress : Stage β × Option (List β)) :
    reads codec (acts.foldl land progress).2 = lastSaved requests replies (reads codec progress.2) := by
  induction requests generalizing acts replies progress with
  | nil =>
    obtain ⟨rfl, rfl⟩ := finishes
    rfl
  | cons request rest ih =>
    cases request with
    | save state =>
      obtain ⟨first, others, answer, rfl, saves, continues⟩ := Proc.completes_bind.mp finishes
      obtain ⟨second, last, later, rfl, serves, rfl, rfl⟩ := Proc.completes_bind.mp continues
      rw [List.append_nil, List.foldl_append, ih serves]
      rcases save_lands roundTrips saves progress with ⟨rfl, put⟩ | ⟨failed, kept⟩
      · rw [put]
        rfl
      · rw [kept]
        cases answer with
        | ok => exact absurd rfl failed
        | error error => rfl
    | load =>
      obtain ⟨first, others, answer, rfl, loads, continues⟩ := Proc.completes_bind.mp finishes
      obtain ⟨second, last, later, rfl, serves, rfl, rfl⟩ := Proc.completes_bind.mp continues
      obtain ⟨text, rest, rfl, rfl, rfl⟩ := Proc.completes_perform_bind.mp loads
      rw [List.append_nil, List.foldl_append, ih serves]
      rfl

end Replies

/-- However the stores interleave and whatever fails: once a strategy is done, its file holds the
document of its last save that has succeeded, and the saves that have failed changed nothing. -/
theorem document_is_last_saved {ι : Type} [DecidableEq ι] {codec : Codec V β} {names : ι → String}
    {requests : ι → List (Request V)} {disk : Disk String β} {history : List (Entry (sig String β) ι)}
    {config : Config (machine String β) ι (List (Reply V))} (apart : Apart names)
    (roundTrips : codec.RoundTrips) (settled : Settled (fun task => tmp (names task)) disk)
    (run : Run (pool codec names requests disk) history config) {task : ι} {replies : List (Reply V)}
    (finished : config.procs task = .done replies) :
    document codec config.state (names task) =
      lastSaved (requests task) replies (document codec disk (names task)) := by
  have tracks := pool_tracks apart settled run
  have landed := watched_landed (fun task => disk.read (names task)) history task
  have lands := serve_lands roundTrips (run.completes finished) (.idle, disk.read (names task))
  rw [landed] at lands
  rw [← tracks.kept.current task] at lands
  exact lands

theorem grid_document_is_last_saved : ∃ history config,
    Run (pool numberCodec gridFile (fun _ => [.save 7]) .empty) history config ∧
      document numberCodec config.state "grid.json" = .ok (some 7) := by
  obtain ⟨history, config, run, _, finished⟩ := exists_boot
  exact ⟨history, config, run,
    document_is_last_saved gridFile_apart numberCodec_roundTrips (.empty _) run finished⟩

end LongTrader.StateStore
