import LongTrader.Interleave.History
import LongTrader.Storage.Disk
import Mathlib.Data.List.Induction

/-! Files that are replaced as a whole: written beside, synced, and renamed into place. Any number of
tasks replace files of one directory, each of them its own. -/

namespace Storage

open Interleave

/-- How far a task has come with the replacement of its file. -/
inductive Stage (β : Type) where
  | idle
  | created (inode : Nat)
  | written (text : List β)
  | opened (inode : Nat) (text : List β)
  | durable (text : List β)
  deriving DecidableEq

/-- What a file holds now, and what it may hold after a crash. -/
structure Register (β : Type) where
  current : Option (List β)
  possible : List (Option (List β))
  deriving DecidableEq

namespace Register

variable {β : Type}

def start (current : Option (List β)) : Register β := ⟨current, [current]⟩

/-- A replacement takes effect, but a crash may still undo it. -/
def land (text : List β) (register : Register β) : Register β :=
  ⟨some text, some text :: register.possible⟩

/-- The directory is synced. -/
def settle (register : Register β) : Register β := start register.current

/-- A crash cannot change the file. -/
def Safe (register : Register β) : Prop := register.possible = [register.current]

end Register

section Watching

variable {Name β ι : Type}

def Stage.advance (stage : Stage β) : Act (sig Name β) → Stage β
  | ⟨.create _, .ok inode⟩ => .created inode
  | ⟨.writeAll _ text, .ok ()⟩ => .written text
  | ⟨.openFile _, .ok inode⟩ =>
    match stage with
    | .written text => .opened inode text
    | _ => .idle
  | ⟨.syncAll _, .ok ()⟩ =>
    match stage with
    | .opened _ text => .durable text
    | _ => .idle
  | _ => .idle

/-- The stage that a task's own actions lead to. -/
def Stage.after (acts : List (Act (sig Name β))) : Stage β := acts.foldl Stage.advance .idle

theorem Stage.after_snoc (acts : List (Act (sig Name β))) (act : Act (sig Name β)) :
    Stage.after (acts ++ [act]) = (Stage.after acts).advance act := by
  rw [Stage.after, List.foldl_append]
  rfl

/-- What an observer of the operations knows of every task and of its file. -/
structure Watch (ι β : Type) where
  stage : ι → Stage β
  register : ι → Register β

variable [DecidableEq ι]

def Watch.registers (watch : Watch ι β) (entry : Entry (sig Name β) ι) : ι → Register β :=
  match entry.act with
  | ⟨.rename _ _, .ok ()⟩ =>
    match watch.stage entry.task with
    | .durable text =>
      Function.update watch.register entry.task ((watch.register entry.task).land text)
    | _ => watch.register
  | ⟨.syncDir, .ok ()⟩ => fun task => (watch.register task).settle
  | _ => watch.register

def Watch.step (watch : Watch ι β) (entry : Entry (sig Name β) ι) : Watch ι β where
  stage := Function.update watch.stage entry.task ((watch.stage entry.task).advance entry.act)
  register := watch.registers entry

/-- A task renames a file into place. -/
abbrev renamed (task : ι) (source target : Name) : Entry (sig Name β) ι :=
  ⟨task, ⟨.rename source target, .ok ()⟩⟩

/-- A task syncs the directory. -/
abbrev dirSynced (task : ι) : Entry (sig Name β) ι := ⟨task, ⟨.syncDir, .ok ()⟩⟩

/-- What has been observed by the end of a history. -/
def watched (initial : ι → Option (List β)) (history : List (Entry (sig Name β) ι)) : Watch ι β :=
  history.foldl Watch.step ⟨fun _ => .idle, fun task => .start (initial task)⟩

theorem watched_snoc (initial : ι → Option (List β)) (history : List (Entry (sig Name β) ι))
    (entry : Entry (sig Name β) ι) :
    watched initial (history ++ [entry]) = (watched initial history).step entry := by
  rw [watched, List.foldl_append]
  rfl

/-- The stage of a task follows from its own actions alone. -/
theorem watched_stage (initial : ι → Option (List β)) (history : List (Entry (sig Name β) ι)) (task : ι) :
    (watched initial history).stage task = Stage.after (own task history) := by
  induction history using List.reverseRecOn with
  | nil => rfl
  | append_singleton history entry ih =>
    obtain ⟨actor, act⟩ := entry
    rw [watched_snoc, own_append]
    by_cases same : actor = task
    · subst same
      rw [own_singleton_self, Stage.after_snoc, ← ih]
      exact Function.update_self ..
    · rw [own_singleton_of_ne same, List.append_nil, ← ih]
      exact Function.update_of_ne (Ne.symm same) ..

/-- How far a task has come, and what it has put into its file. -/
def land (progress : Stage β × Option (List β)) (act : Act (sig Name β)) : Stage β × Option (List β) :=
  (progress.1.advance act,
    match act with
    | ⟨.rename _ _, .ok ()⟩ =>
      match progress.1 with
      | .durable text => some text
      | _ => progress.2
    | _ => progress.2)

/-- What a task may do that replaces the file `path task` by way of `temp task`, with texts of its own. -/
def permits (path temp : ι → Name) (texts : ι → Set (List β)) (task : ι) (past : List (Act (sig Name β)))
    (act : Act (sig Name β)) : Prop :=
  match act.op with
  | .create name | .openFile name => name = temp task
  | .writeAll inode text => Stage.after past = .created inode ∧ text ∈ texts task
  | .syncAll inode => ∃ text, Stage.after past = .opened inode text
  | .rename source target =>
    source = temp task ∧ target = path task ∧ ∃ text, Stage.after past = .durable text
  | .createDirAll | .openDir | .syncDir | .read _ => True

end Watching

section Keeping

variable {Name β ι : Type} {path temp : ι → Name}

/-- The names of the files and of what is written beside them. -/
structure Separate (path temp : ι → Name) : Prop where
  paths : Function.Injective path
  temps : Function.Injective temp
  apart : ∀ task other, temp task ≠ path other

/-- What a stage says of the file that is written beside. -/
def Stage.Holds (disk : Disk Name β) (name : Name) : Stage β → Prop
  | .idle => True
  | .created inode => disk.entries name = some inode ∧ disk.contents inode = []
  | .written text => ∃ inode, disk.entries name = some inode ∧ disk.contents inode = text
  | .opened inode text => disk.entries name = some inode ∧ disk.contents inode = text
  | .durable text =>
    ∃ inode, disk.entries name = some inode ∧ disk.contents inode = text ∧ disk.synced inode = true

/-- A disk to start from: nothing is unsynced, and what is written beside has one name only. -/
structure Settled (temp : ι → Name) (disk : Disk Name β) : Prop where
  earlier : disk.earlier = []
  synced : ∀ inode, disk.synced inode = true
  bounded : ∀ name inode, disk.entries name = some inode → inode < disk.nextInode
  single : ∀ task name inode, disk.entries (temp task) = some inode → disk.entries name = some inode →
    name = temp task

theorem Settled.empty (temp : ι → Name) : Settled temp (Disk.empty : Disk Name β) :=
  ⟨rfl, fun _ => rfl, fun _ _ found => absurd found (Option.some_ne_none _).symm,
    fun _ _ _ found => absurd found (Option.some_ne_none _).symm⟩

/-- In every directory that a crash may leave, each file is one that it may then hold, and is synced.
No such directory shows as a file what is being written beside one now. -/
structure Kept (path temp : ι → Name) (disk : Disk Name β) (register : ι → Register β) : Prop where
  current : ∀ task, disk.read (path task) = (register task).current
  possible : ∀ directory ∈ disk.directories, ∀ task,
    (directory (path task)).map disk.contents ∈ (register task).possible
  bounded : ∀ directory ∈ disk.directories, ∀ name inode,
    directory name = some inode → inode < disk.nextInode
  settled : ∀ directory ∈ disk.directories, ∀ task inode,
    directory (path task) = some inode → disk.synced inode = true
  single : ∀ directory ∈ disk.directories, ∀ task name inode,
    directory (temp task) = some inode → directory name = some inode → name = temp task
  ahead : ∀ task inode, disk.entries (temp task) = some inode → ∀ directory ∈ disk.directories, ∀ other,
    directory (path other) ≠ some inode

theorem mem_directories {disk : Disk Name β} {directory : Name → Option Nat} :
    directory ∈ disk.directories ↔ directory = disk.entries ∨ directory ∈ disk.earlier :=
  List.mem_cons

theorem entries_mem (disk : Disk Name β) : disk.entries ∈ disk.directories :=
  List.mem_cons_self ..

theorem Settled.kept {disk : Disk Name β} (settled : Settled temp disk) (names : Separate path temp) :
    Kept path temp disk fun task => .start (disk.read (path task)) := by
  have only : disk.directories = [disk.entries] := by rw [Disk.directories, settled.earlier]
  refine ⟨fun _ => rfl, ?_, ?_, fun _ _ _ inode _ => settled.synced inode, ?_, ?_⟩
  · rw [only]
    exact List.forall_mem_singleton.mpr fun task => List.mem_singleton_self _
  · rw [only]
    exact List.forall_mem_singleton.mpr settled.bounded
  · rw [only]
    exact List.forall_mem_singleton.mpr settled.single
  · intro task inode found
    rw [only]
    refine List.forall_mem_singleton.mpr fun other shared => ?_
    exact names.apart task other (settled.single task _ inode found shared).symm

/-- What a crash leaves of a directory that is kept. -/
theorem Kept.recover {disk : Disk Name β} {register : ι → Register β}
    (kept : Kept path temp disk register) {directory : Name → Option Nat}
    (member : directory ∈ disk.directories) (found : Nat → List β) :
    Settled temp (disk.recover directory found) ∧
      ∀ task, (disk.recover directory found).read (path task) ∈ (register task).possible := by
  refine ⟨⟨rfl, fun _ => rfl, kept.bounded directory member, kept.single directory member⟩, ?_⟩
  intro task
  have same : (disk.recover directory found).read (path task) =
      (directory (path task)).map disk.contents := by
    refine Option.map_congr fun inode leads => ?_
    exact if_pos (kept.settled directory member task inode leads)
  rw [same]
  exact kept.possible directory member task

section Steps

variable {disk after : Disk Name β} {register : ι → Register β}

/-- Nothing changes but one file that is written beside. -/
theorem Kept.of_contents (kept : Kept path temp disk register) {task : ι} {inode : Nat}
    (found : disk.entries (temp task) = some inode) (entries : after.entries = disk.entries)
    (earlier : after.earlier = disk.earlier) (nextInode : after.nextInode = disk.nextInode)
    (others : ∀ other ≠ inode, after.contents other = disk.contents other ∧
      after.synced other = disk.synced other) : Kept path temp after register := by
  have directories : after.directories = disk.directories := by
    rw [Disk.directories, Disk.directories, entries, earlier]
  have differ : ∀ directory ∈ disk.directories, ∀ other number,
      directory (path other) = some number → number ≠ inode := by
    intro directory member other number leads equal
    subst equal
    exact kept.ahead task number found directory member other leads
  have same : ∀ directory ∈ disk.directories, ∀ other,
      (directory (path other)).map after.contents = (directory (path other)).map disk.contents := by
    intro directory member other
    exact Option.map_congr fun number leads => (others number (differ directory member other number leads)).1
  refine ⟨?_, ?_, ?_, ?_, ?_, ?_⟩
  · intro other
    rw [← kept.current other, Disk.read, Disk.read, entries]
    exact same disk.entries (entries_mem disk) other
  · rw [directories]
    intro directory member other
    rw [same directory member other]
    exact kept.possible directory member other
  · rw [directories, nextInode]
    exact kept.bounded
  · rw [directories]
    intro directory member other number leads
    rw [(others number (differ directory member other number leads)).2]
    exact kept.settled directory member other number leads
  · rw [directories]
    exact kept.single
  · rw [directories, entries]
    exact kept.ahead

/-- Syncing a file loses nothing. -/
theorem Kept.syncAll (kept : Kept path temp disk register) (inode : Nat) :
    Kept path temp { disk with synced := Function.update disk.synced inode true } register := by
  refine ⟨kept.current, kept.possible, kept.bounded, ?_, kept.single, kept.ahead⟩
  intro directory member task number leads
  by_cases same : number = inode
  · subst same
    exact Function.update_self ..
  · exact (Function.update_of_ne same ..).trans (kept.settled directory member task number leads)

theorem Kept.syncDir (kept : Kept path temp disk register) :
    Kept path temp { disk with earlier := [] } fun task => (register task).settle := by
  have here := entries_mem disk
  refine ⟨kept.current, ?_, ?_, ?_, ?_, ?_⟩
  · refine List.forall_mem_singleton.mpr fun task => ?_
    exact List.mem_singleton.mpr (kept.current task)
  · exact List.forall_mem_singleton.mpr (kept.bounded _ here)
  · exact List.forall_mem_singleton.mpr (kept.settled _ here)
  · exact List.forall_mem_singleton.mpr (kept.single _ here)
  · intro task inode found
    exact List.forall_mem_singleton.mpr (kept.ahead task inode found _ here)

section Links

/-- A new directory over the old ones, none of whose files has changed. -/
theorem Kept.relinked {next : ι → Register β} (kept : Kept path temp disk register)
    (newest : Kept path temp { after with earlier := [] } next) (earlier : after.earlier = disk.directories)
    (grows : disk.nextInode ≤ after.nextInode)
    (same : ∀ inode < disk.nextInode, after.contents inode = disk.contents inode ∧
      after.synced inode = disk.synced inode)
    (wider : ∀ task, (register task).possible ⊆ (next task).possible)
    (ahead : ∀ task inode, after.entries (temp task) = some inode → ∀ directory ∈ disk.directories,
      ∀ other, directory (path other) ≠ some inode) : Kept path temp after next := by
  have here : ∀ directory ∈ after.directories, directory = after.entries ∨ directory ∈ disk.directories := by
    intro directory member
    rw [← earlier]
    exact mem_directories.mp member
  have first := entries_mem { after with earlier := [] }
  refine ⟨newest.current, ?_, ?_, ?_, ?_, ?_⟩
  · intro directory member task
    rcases here directory member with rfl | old
    · exact newest.possible _ first task
    · apply wider task
      have unchanged : (directory (path task)).map after.contents =
          (directory (path task)).map disk.contents :=
        Option.map_congr fun inode leads => (same inode (kept.bounded directory old _ inode leads)).1
      rw [unchanged]
      exact kept.possible directory old task
  · intro directory member name inode leads
    rcases here directory member with rfl | old
    · exact newest.bounded _ first name inode leads
    · exact (kept.bounded directory old name inode leads).trans_le grows
  · intro directory member task inode leads
    rcases here directory member with rfl | old
    · exact newest.settled _ first task inode leads
    · rw [(same inode (kept.bounded directory old _ inode leads)).2]
      exact kept.settled directory old task inode leads
  · intro directory member task name inode one two
    rcases here directory member with rfl | old
    · exact newest.single _ first task name inode one two
    · exact kept.single directory old task name inode one two
  · intro task inode found directory member other
    rcases here directory member with rfl | old
    · exact newest.ahead task inode found _ first other
    · exact ahead task inode found directory old other

variable [DecidableEq Name]

theorem Kept.create_new (kept : Kept path temp disk register) (names : Separate path temp) {task : ι}
    (absent : disk.entries (temp task) = none) : Kept path temp (disk.create (temp task)).2 register := by
  unfold Disk.create
  rw [absent]
  have here := entries_mem disk
  have samePath : ∀ other, Function.update disk.entries (temp task) (some disk.nextInode) (path other) =
      disk.entries (path other) := fun other => Function.update_of_ne (names.apart task other).symm ..
  have leads : ∀ {name inode}, Function.update disk.entries (temp task) (some disk.nextInode) name = some inode →
      name = temp task ∧ inode = disk.nextInode ∨ disk.entries name = some inode := by
    intro name inode found
    by_cases same : name = temp task
    · subst same
      rw [Function.update_self] at found
      exact .inl ⟨rfl, (Option.some.inj found).symm⟩
    · rw [Function.update_of_ne same] at found
      exact .inr found
  have older : ∀ {inode}, inode < disk.nextInode →
      Function.update disk.contents disk.nextInode [] inode = disk.contents inode ∧
        Function.update disk.synced disk.nextInode false inode = disk.synced inode := by
    intro inode below
    exact ⟨Function.update_of_ne below.ne .., Function.update_of_ne below.ne ..⟩
  have ahead : ∀ other inode, Function.update disk.entries (temp task) (some disk.nextInode) (temp other) =
      some inode → ∀ directory ∈ disk.directories, ∀ file, directory (path file) ≠ some inode := by
    intro other inode found directory member file shared
    rcases leads found with ⟨_, rfl⟩ | old
    · exact absurd (kept.bounded directory member _ _ shared) (Nat.lt_irrefl _)
    · exact kept.ahead other inode old directory member file shared
  have reads : ∀ other, (Function.update disk.entries (temp task) (some disk.nextInode) (path other)).map
      (Function.update disk.contents disk.nextInode []) = (register other).current := by
    intro other
    rw [samePath, ← kept.current other]
    exact Option.map_congr fun inode found => (older (kept.bounded _ here _ inode found)).1
  refine kept.relinked ⟨reads, ?_, ?_, ?_, ?_, ?_⟩ rfl (Nat.le_succ _) (fun inode below => older below)
    (fun _ => List.Subset.refl _) ahead
  · refine List.forall_mem_singleton.mpr fun other => ?_
    refine Eq.mpr (congrArg (· ∈ _) ((reads other).trans (kept.current other).symm)) ?_
    exact kept.possible _ here other
  · refine List.forall_mem_singleton.mpr fun name inode found => ?_
    rcases leads found with ⟨_, rfl⟩ | old
    · exact Nat.lt_succ_self _
    · exact Nat.lt_succ_of_lt (kept.bounded _ here name inode old)
  · refine List.forall_mem_singleton.mpr fun other inode found => ?_
    have old : disk.entries (path other) = some inode := (samePath other).symm.trans found
    exact (older (kept.bounded _ here _ inode old)).2.trans (kept.settled _ here other inode old)
  · refine List.forall_mem_singleton.mpr fun other name inode one two => ?_
    rcases leads one with ⟨same, rfl⟩ | oldOne
    · rcases leads two with ⟨rfl, _⟩ | oldTwo
      · exact same.symm
      · exact absurd (kept.bounded _ here _ _ oldTwo) (Nat.lt_irrefl _)
    · rcases leads two with ⟨_, rfl⟩ | oldTwo
      · exact absurd (kept.bounded _ here _ _ oldOne) (Nat.lt_irrefl _)
      · exact kept.single _ here other name inode oldOne oldTwo
  · intro other inode found
    refine List.forall_mem_singleton.mpr fun file shared => ?_
    exact ahead other inode found _ here file ((samePath file).symm.trans shared)

/-- Opening the file beside for writing, whether or not an earlier attempt has left it. -/
theorem Kept.create (kept : Kept path temp disk register) (names : Separate path temp) (task : ι) :
    Kept path temp (disk.create (temp task)).2 register := by
  cases found : disk.entries (temp task) with
  | none => exact kept.create_new names found
  | some inode =>
    unfold Disk.create
    rw [found]
    refine kept.of_contents found rfl rfl rfl fun other different => ?_
    exact ⟨Function.update_of_ne different .., Function.update_of_ne different ..⟩

section Moving

variable {entries : Name → Option Nat} {task : ι} {inode : Nat}

theorem moved_target (source target : Name) : Disk.moved entries source target inode target = some inode :=
  Function.update_self ..

theorem moved_of_ne {source target name : Name} (notTarget : name ≠ target) (notSource : name ≠ source) :
    Disk.moved entries source target inode name = entries name :=
  (Function.update_of_ne notTarget ..).trans (Function.update_of_ne notSource ..)

/-- A name that leads somewhere is the target, or it has led there before. -/
theorem moved_cases {source target name : Name} {number : Nat}
    (leads : Disk.moved entries source target inode name = some number) :
    name = target ∧ number = inode ∨ name ≠ source ∧ entries name = some number := by
  by_cases new : name = target
  · subst new
    exact .inl ⟨rfl, Option.some.inj (leads.symm.trans (moved_target source name))⟩
  · rw [Disk.moved, Function.update_of_ne new] at leads
    by_cases emptied : name = source
    · subst emptied
      rw [Function.update_self] at leads
      cases leads
    · rw [Function.update_of_ne emptied] at leads
      exact .inr ⟨emptied, leads⟩

theorem moved_path (names : Separate path temp) {other : ι} (different : other ≠ task) :
    Disk.moved entries (temp task) (path task) inode (path other) = entries (path other) :=
  moved_of_ne (fun same => different (names.paths same)) (names.apart task other).symm

/-- What is written beside the other files stays where it is. -/
theorem moved_temp (names : Separate path temp) {other : ι} {number : Nat}
    (leads : Disk.moved entries (temp task) (path task) inode (temp other) = some number) :
    other ≠ task ∧ entries (temp other) = some number := by
  rcases moved_cases leads with ⟨same, -⟩ | ⟨different, old⟩
  · exact absurd same (names.apart other task)
  · exact ⟨fun same => different (congrArg temp same), old⟩

/-- Nor is any of it shown as a file. -/
theorem Kept.moved_apart (kept : Kept path temp disk register) (names : Separate path temp)
    (found : disk.entries (temp task) = some inode) {other : ι} {number : Nat}
    (leads : Disk.moved disk.entries (temp task) (path task) inode (temp other) = some number) (file : ι) :
    Disk.moved disk.entries (temp task) (path task) inode (path file) ≠ some number := by
  intro shared
  have here := entries_mem disk
  obtain ⟨different, old⟩ := moved_temp names leads
  rcases moved_cases shared with ⟨-, rfl⟩ | ⟨-, oldFile⟩
  · exact different (names.temps (kept.single _ here task _ _ found old))
  · exact kept.ahead other number old _ here file oldFile

variable [DecidableEq ι]

/-- A replacement leaves a file what it may hold after a crash. -/
theorem possible_land (text : List β) (other : ι) :
    (register other).possible ⊆
      (Function.update register task ((register task).land text) other).possible := by
  by_cases same : other = task
  · subst same
    rw [Function.update_self]
    exact List.subset_cons_self ..
  · rw [Function.update_of_ne same]
    exact List.Subset.refl _

theorem Kept.moved_read (kept : Kept path temp disk register) (names : Separate path temp) (other : ι) :
    (Disk.moved disk.entries (temp task) (path task) inode (path other)).map disk.contents =
      (Function.update register task ((register task).land (disk.contents inode)) other).current := by
  by_cases same : other = task
  · subst same
    rw [moved_target, Function.update_self]
    rfl
  · rw [moved_path names same, Function.update_of_ne same]
    exact kept.current other

theorem Kept.moved_possible (kept : Kept path temp disk register) (names : Separate path temp) (other : ι) :
    (Disk.moved disk.entries (temp task) (path task) inode (path other)).map disk.contents ∈
      (Function.update register task ((register task).land (disk.contents inode)) other).possible := by
  by_cases same : other = task
  · subst same
    rw [moved_target, Function.update_self]
    exact List.mem_cons_self ..
  · rw [moved_path names same, Function.update_of_ne same]
    exact kept.possible _ (entries_mem disk) other

/-- The directory with a synced file moved into place, on its own. -/
theorem Kept.moved (kept : Kept path temp disk register) (names : Separate path temp)
    (found : disk.entries (temp task) = some inode) (synced : disk.synced inode = true) :
    Kept path temp
      { disk with entries := Disk.moved disk.entries (temp task) (path task) inode, earlier := [] }
      (Function.update register task ((register task).land (disk.contents inode))) := by
  have here := entries_mem disk
  refine ⟨kept.moved_read names, ?_, ?_, ?_, ?_, ?_⟩
  · exact List.forall_mem_singleton.mpr (kept.moved_possible names)
  · refine List.forall_mem_singleton.mpr fun name number leads => ?_
    rcases moved_cases leads with ⟨-, rfl⟩ | ⟨-, old⟩
    · exact kept.bounded _ here _ _ found
    · exact kept.bounded _ here name number old
  · refine List.forall_mem_singleton.mpr fun other number leads => ?_
    rcases moved_cases leads with ⟨-, rfl⟩ | ⟨-, old⟩
    · exact synced
    · exact kept.settled _ here other number old
  · refine List.forall_mem_singleton.mpr fun other name number one two => ?_
    rcases moved_cases two with ⟨rfl, rfl⟩ | ⟨-, old⟩
    · exact absurd (moved_target ..) (kept.moved_apart names found one task)
    · exact kept.single _ here other name number (moved_temp names one).2 old
  · exact fun other number leads =>
      List.forall_mem_singleton.mpr (kept.moved_apart names found leads)

/-- Renaming the file beside into place, once it is synced. -/
theorem Kept.rename (kept : Kept path temp disk register) (names : Separate path temp)
    (found : disk.entries (temp task) = some inode) (synced : disk.synced inode = true) :
    Kept path temp (disk.relink (Disk.moved disk.entries (temp task) (path task) inode))
      (Function.update register task ((register task).land (disk.contents inode))) := by
  refine kept.relinked (kept.moved names found synced) rfl (Nat.le_refl _) (fun _ _ => ⟨rfl, rfl⟩)
    (possible_land _) fun other number leads => ?_
  exact kept.ahead other number (moved_temp names leads).2

end Moving

end Links

end Steps

section Tracking

variable {disk after : Disk Name β} {watch : Watch ι β}

/-- What an operation leaves of the file beside leaves what its stage says. -/
theorem Stage.Holds.frame {stage : Stage β} {name : Name} (holds : stage.Holds disk name)
    (entry : after.entries name = disk.entries name)
    (same : ∀ inode, disk.entries name = some inode → after.contents inode = disk.contents inode ∧
      (disk.synced inode = true → after.synced inode = true)) : stage.Holds after name := by
  cases stage with
  | idle => trivial
  | created inode => exact ⟨entry.trans holds.1, (same inode holds.1).1.trans holds.2⟩
  | written text =>
    obtain ⟨inode, found, held⟩ := holds
    exact ⟨inode, entry.trans found, (same inode found).1.trans held⟩
  | opened inode text => exact ⟨entry.trans holds.1, (same inode holds.1).1.trans holds.2⟩
  | durable text =>
    obtain ⟨inode, found, held, synced⟩ := holds
    exact ⟨inode, entry.trans found, (same inode found).1.trans held, (same inode found).2 synced⟩

/-- What has been observed is true of the disk. -/
structure Tracks (path temp : ι → Name) (disk : Disk Name β) (watch : Watch ι β) : Prop where
  kept : Kept path temp disk watch.register
  stages : ∀ task, (watch.stage task).Holds disk (temp task)

variable [DecidableEq ι]

theorem Tracks.next {task : ι} {stage : Stage β} {register : ι → Register β}
    (kept : Kept path temp after register) (own : stage.Holds after (temp task))
    (others : ∀ other ≠ task, (watch.stage other).Holds after (temp other)) :
    Tracks path temp after ⟨Function.update watch.stage task stage, register⟩ := by
  refine ⟨kept, fun other => ?_⟩
  change (Function.update watch.stage task stage other).Holds after (temp other)
  by_cases same : other = task
  · subst same
    rwa [Function.update_self]
  · rw [Function.update_of_ne same]
    exact others other same

/-- An operation that leaves the directory and, but for one file that is written beside, the contents. -/
theorem Tracks.touch (tracks : Tracks path temp disk watch) (names : Separate path temp) {task : ι}
    {stage : Stage β} {register : ι → Register β} {inode : Nat}
    (found : disk.entries (temp task) = some inode) (kept : Kept path temp after register)
    (entries : after.entries = disk.entries)
    (same : ∀ other ≠ inode, after.contents other = disk.contents other ∧
      after.synced other = disk.synced other)
    (own : stage.Holds after (temp task)) :
    Tracks path temp after ⟨Function.update watch.stage task stage, register⟩ := by
  refine .next kept own fun other different => ?_
  refine (tracks.stages other).frame (congrFun entries _) fun number leads => ?_
  have apart : number ≠ inode := by
    intro equal
    subst equal
    exact different (names.temps (tracks.kept.single _ (entries_mem disk) task _ _ found leads))
  exact ⟨(same number apart).1, fun synced => (same number apart).2.trans synced⟩

/-- An operation that changes nothing at all. -/
theorem Tracks.idle (tracks : Tracks path temp disk watch) (task : ι) :
    Tracks path temp disk ⟨Function.update watch.stage task .idle, watch.register⟩ :=
  .next tracks.kept trivial fun other _ => tracks.stages other

theorem Tracks.openFile (tracks : Tracks path temp disk watch) (names : Separate path temp) (task : ι) :
    Tracks path temp disk (watch.step (@Entry.of (sig Name β) ι task (.openFile (temp task))
      ((disk.entries (temp task)).elim (.error .notFound) .ok))) := by
  cases found : disk.entries (temp task) with
  | none => exact tracks.idle task
  | some inode =>
    refine tracks.touch names found tracks.kept rfl (fun _ _ => ⟨rfl, rfl⟩) ?_
    have here := tracks.stages task
    cases stage : watch.stage task with
    | written text =>
      rw [stage] at here
      obtain ⟨number, leads, held⟩ := here
      obtain rfl : inode = number := Option.some.inj (found.symm.trans leads)
      exact ⟨found, held⟩
    | idle | created | opened | durable => trivial

theorem Tracks.syncAll (tracks : Tracks path temp disk watch) (names : Separate path temp) {task : ι}
    {inode : Nat} {text : List β} (opened : watch.stage task = .opened inode text) :
    Tracks path temp { disk with synced := Function.update disk.synced inode true }
      (watch.step (@Entry.of (sig Name β) ι task (.syncAll inode) (.ok ()))) := by
  have here := tracks.stages task
  rw [opened] at here
  obtain ⟨found, held⟩ := here
  have becomes : (watch.stage task).advance (⟨.syncAll inode, .ok ()⟩ : Act (sig Name β)) = .durable text := by
    rw [opened]
    rfl
  refine tracks.touch names found (tracks.kept.syncAll inode) rfl (fun other different => ?_) ?_
  · exact ⟨rfl, Function.update_of_ne different ..⟩
  · change ((watch.stage task).advance (⟨.syncAll inode, .ok ()⟩ : Act (sig Name β))).Holds _ _
    rw [becomes]
    exact ⟨inode, found, held, Function.update_self ..⟩

variable [DecidableEq Name]

theorem Tracks.create (tracks : Tracks path temp disk watch) (names : Separate path temp) (task : ι) :
    Tracks path temp (disk.create (temp task)).2
      ⟨Function.update watch.stage task (.created (disk.create (temp task)).1), watch.register⟩ := by
  have kept := tracks.kept.create names task
  cases found : disk.entries (temp task) with
  | some inode =>
    have made : disk.create (temp task) = (inode, disk.truncate inode) := by
      unfold Disk.create
      rw [found]
    rw [made] at kept ⊢
    refine tracks.touch names found kept rfl (fun other different => ?_) ⟨found, Function.update_self ..⟩
    exact ⟨Function.update_of_ne different .., Function.update_of_ne different ..⟩
  | none =>
    refine .next kept ?_ fun other different => ?_
    · unfold Disk.create
      rw [found]
      exact ⟨Function.update_self .., Function.update_self ..⟩
    · unfold Disk.create
      rw [found]
      have apart : temp other ≠ temp task := fun same => different (names.temps same)
      refine (tracks.stages other).frame (Function.update_of_ne apart ..) fun number leads => ?_
      have below := tracks.kept.bounded _ (entries_mem disk) _ number leads
      exact ⟨Function.update_of_ne below.ne .., fun synced => (Function.update_of_ne below.ne ..).trans synced⟩

theorem Tracks.rename (tracks : Tracks path temp disk watch) (names : Separate path temp) {task : ι}
    {text : List β} (durable : watch.stage task = .durable text) :
    ∃ inode, disk.entries (temp task) = some inode ∧
      Tracks path temp (disk.relink (Disk.moved disk.entries (temp task) (path task) inode))
        ⟨Function.update watch.stage task .idle,
          Function.update watch.register task ((watch.register task).land text)⟩ := by
  have holds := tracks.stages task
  rw [durable] at holds
  obtain ⟨inode, found, rfl, synced⟩ := holds
  refine ⟨inode, found, .next (tracks.kept.rename names found synced) trivial fun other different => ?_⟩
  refine (tracks.stages other).frame ?_ fun _ _ => ⟨rfl, id⟩
  exact moved_of_ne (names.apart other task) fun same => different (names.temps same)

section Executing

variable {task : ι} {weather : Weather}

theorem Tracks.exec_create (tracks : Tracks path temp disk watch) (names : Separate path temp)
    {ans : Except IoError Nat} (executed : Disk.exec (.create (temp task)) weather disk = (ans, after)) :
    Tracks path temp after (watch.step ⟨task, ⟨.create (temp task), ans⟩⟩) := by
  cases weather with
  | fair =>
    obtain ⟨rfl, rfl⟩ := Prod.mk.inj executed
    exact tracks.create names task
  | fails reason written =>
    obtain ⟨rfl, rfl⟩ := Prod.mk.inj executed
    exact tracks.idle task

/-- A write that fails has written something into the file beside. -/
theorem Tracks.exec_writeAll (tracks : Tracks path temp disk watch) (names : Separate path temp)
    {inode : Nat} {text : List β} {ans : Except IoError Unit} (created : watch.stage task = .created inode)
    (executed : Disk.exec (.writeAll inode text) weather disk = (ans, after)) :
    Tracks path temp after (watch.step (@Entry.of (sig Name β) ι task (.writeAll inode text) ans)) := by
  have holds := tracks.stages task
  rw [created] at holds
  obtain ⟨found, empty⟩ := holds
  have others : ∀ put : List β, ∀ other ≠ inode, (disk.write inode put).contents other = disk.contents other ∧
      (disk.write inode put).synced other = disk.synced other := by
    intro put other different
    exact ⟨Function.update_of_ne different .., Function.update_of_ne different ..⟩
  have kept : ∀ put : List β, Kept path temp (disk.write inode put) watch.register :=
    fun put => tracks.kept.of_contents found rfl rfl rfl (others put)
  cases weather with
  | fair =>
    obtain ⟨rfl, rfl⟩ := Prod.mk.inj executed
    refine tracks.touch names found (kept text) rfl (others text) ⟨inode, found, ?_⟩
    change Function.update disk.contents inode (text ++ (disk.contents inode).drop text.length) inode = text
    rw [Function.update_self, empty, List.drop_nil, List.append_nil]
  | fails reason written =>
    obtain ⟨rfl, rfl⟩ := Prod.mk.inj executed
    exact tracks.touch names found (kept _) rfl (others _) trivial

theorem Tracks.exec_openFile (tracks : Tracks path temp disk watch) (names : Separate path temp)
    {ans : Except IoError Nat} (executed : Disk.exec (.openFile (temp task)) weather disk = (ans, after)) :
    Tracks path temp after (watch.step ⟨task, ⟨.openFile (temp task), ans⟩⟩) := by
  cases weather with
  | fair =>
    obtain ⟨rfl, rfl⟩ := Prod.mk.inj executed
    exact tracks.openFile names task
  | fails reason written =>
    obtain ⟨rfl, rfl⟩ := Prod.mk.inj executed
    exact tracks.idle task

theorem Tracks.exec_syncAll (tracks : Tracks path temp disk watch) (names : Separate path temp) {inode : Nat}
    {text : List β} {ans : Except IoError Unit} (opened : watch.stage task = .opened inode text)
    (executed : Disk.exec (.syncAll inode) weather disk = (ans, after)) :
    Tracks path temp after (watch.step (@Entry.of (sig Name β) ι task (.syncAll inode) ans)) := by
  cases weather with
  | fair =>
    obtain ⟨rfl, rfl⟩ := Prod.mk.inj executed
    exact tracks.syncAll names opened
  | fails reason written =>
    obtain ⟨rfl, rfl⟩ := Prod.mk.inj executed
    exact tracks.idle task

theorem Tracks.exec_rename (tracks : Tracks path temp disk watch) (names : Separate path temp)
    {text : List β} {ans : Except IoError Unit} (durable : watch.stage task = .durable text)
    (executed : Disk.exec (.rename (temp task) (path task)) weather disk = (ans, after)) :
    Tracks path temp after (watch.step ⟨task, ⟨.rename (temp task) (path task), ans⟩⟩) := by
  cases weather with
  | fair =>
    obtain ⟨inode, found, renamed⟩ := tracks.rename names durable
    have done : Disk.exec (.rename (temp task) (path task)) .fair disk =
        (.ok (), disk.relink (Disk.moved disk.entries (temp task) (path task) inode)) := by
      rw [Disk.exec, found]
    obtain ⟨rfl, rfl⟩ := Prod.mk.inj (done.symm.trans executed)
    have registers : watch.registers (@Entry.of (sig Name β) ι task (.rename (temp task) (path task))
        (.ok ())) = Function.update watch.register task ((watch.register task).land text) := by
      unfold Watch.registers
      simp only [durable]
    rw [← registers] at renamed
    exact renamed
  | fails reason written =>
    obtain ⟨rfl, rfl⟩ := Prod.mk.inj executed
    exact tracks.idle task

theorem Tracks.exec_syncDir (tracks : Tracks path temp disk watch) {ans : Except IoError Unit}
    (executed : Disk.exec .syncDir weather disk = (ans, after)) :
    Tracks path temp after (watch.step (@Entry.of (sig Name β) ι task .syncDir ans)) := by
  cases weather with
  | fair =>
    obtain ⟨rfl, rfl⟩ := Prod.mk.inj executed
    refine .next tracks.kept.syncDir trivial fun other different => ?_
    exact (tracks.stages other).frame rfl fun _ _ => ⟨rfl, id⟩
  | fails reason written =>
    obtain ⟨rfl, rfl⟩ := Prod.mk.inj executed
    exact tracks.idle task

end Executing

/-- An operation that a task may do keeps what has been observed true. -/
theorem Tracks.step (tracks : Tracks path temp disk watch) (names : Separate path temp) {task : ι}
    {texts : ι → Set (List β)}
    {past : List (Act (sig Name β))} (known : watch.stage task = Stage.after past) {op : Op Name β}
    {weather : Weather} {ans : Op.Ans op} (executed : Disk.exec op weather disk = (ans, after))
    (allowed : permits path temp texts task past ⟨op, ans⟩) :
    Tracks path temp after (watch.step ⟨task, ⟨op, ans⟩⟩) := by
  cases op with
  | createDirAll | openDir | read =>
    cases weather
    all_goals
      obtain ⟨rfl, rfl⟩ := Prod.mk.inj executed
      exact tracks.idle task
  | create name =>
    obtain rfl : name = temp task := allowed
    exact tracks.exec_create names executed
  | writeAll inode text => exact tracks.exec_writeAll names (known.trans allowed.1) executed
  | openFile name =>
    obtain rfl : name = temp task := allowed
    exact tracks.exec_openFile names executed
  | syncAll inode =>
    obtain ⟨text, opened⟩ := allowed
    exact tracks.exec_syncAll names (known.trans opened) executed
  | rename source target =>
    obtain ⟨rfl, rfl, text, durable⟩ := allowed
    exact tracks.exec_rename names (known.trans durable) executed
  | syncDir => exact tracks.exec_syncDir executed

end Tracking

end Keeping

section Results

variable {Name β ι : Type} {texts : Set (List β)} {initial : Option (List β)}

def Stage.Within (texts : Set (List β)) : Stage β → Prop
  | .written text | .opened _ text | .durable text => text ∈ texts
  | .idle | .created _ => True

/-- Nothing but a text of the task's own, or what its file held at first. -/
def Register.Within (register : Register β) (initial : Option (List β)) (texts : Set (List β)) : Prop :=
  ∀ document ∈ register.current :: register.possible,
    document = initial ∨ ∃ text ∈ texts, document = some text

theorem Register.Within.land {register : Register β} (within : register.Within initial texts) {text : List β}
    (member : text ∈ texts) : (register.land text).Within initial texts := by
  have new : some text = initial ∨ ∃ other ∈ texts, some text = some other := .inr ⟨text, member, rfl⟩
  intro document found
  rcases List.mem_cons.mp found with rfl | found
  · exact new
  · rcases List.mem_cons.mp found with rfl | old
    · exact new
    · exact within document (List.mem_cons_of_mem _ old)

theorem Register.Within.settle {register : Register β} (within : register.Within initial texts) :
    register.settle.Within initial texts := by
  intro document found
  have here : document = register.current := by simpa [Register.settle, Register.start] using found
  exact within document (here ▸ List.mem_cons_self ..)

theorem Stage.Within.advance {path temp : ι → Name} {texts : ι → Set (List β)} {stage : Stage β} {task : ι}
    {past : List (Act (sig Name β))} {act : Act (sig Name β)} (within : stage.Within (texts task))
    (allowed : permits path temp texts task past act) : (stage.advance act).Within (texts task) := by
  obtain ⟨op, ans⟩ := act
  cases op with
  | createDirAll | openDir | syncDir | read | rename => trivial
  | create name => cases ans <;> trivial
  | writeAll inode text =>
    cases ans with
    | error => trivial
    | ok => exact allowed.2
  | openFile name =>
    cases ans with
    | error => trivial
    | ok inode => cases stage <;> trivial
  | syncAll inode =>
    cases ans with
    | error => trivial
    | ok => cases stage <;> trivial

variable [DecidableEq ι]

theorem Watch.registers_cases (watch : Watch ι β) (entry : Entry (sig Name β) ι) :
    (∃ source target text, entry.act = ⟨.rename source target, .ok ()⟩ ∧
        watch.stage entry.task = .durable text ∧ watch.registers entry =
          Function.update watch.register entry.task ((watch.register entry.task).land text)) ∨
      (entry.act = ⟨.syncDir, .ok ()⟩ ∧ watch.registers entry = fun task => (watch.register task).settle) ∨
      watch.registers entry = watch.register := by
  obtain ⟨task, op, ans⟩ := entry
  cases op with
  | createDirAll | openDir | read | create | writeAll | openFile | syncAll => exact .inr (.inr rfl)
  | rename source target =>
    cases ans with
    | error => exact .inr (.inr rfl)
    | ok =>
      cases stage : watch.stage task with
      | durable text =>
        refine .inl ⟨source, target, text, rfl, rfl, ?_⟩
        unfold Watch.registers
        simp only [stage]
      | idle | created | written | opened =>
        refine .inr (.inr ?_)
        unfold Watch.registers
        simp only [stage]
  | syncDir =>
    cases ans with
    | error => exact .inr (.inr rfl)
    | ok => exact .inr (.inl ⟨rfl, rfl⟩)

/-- What a file holds follows from the actions of its own task. -/
theorem Watch.step_land (watch : Watch ι β) (task : ι) (act : Act (sig Name β)) :
    land (watch.stage task, (watch.register task).current) act =
      ((watch.step ⟨task, act⟩).stage task, ((watch.step ⟨task, act⟩).register task).current) := by
  have stage : (watch.step ⟨task, act⟩).stage task = (watch.stage task).advance act :=
    Function.update_self ..
  rw [stage]
  refine Prod.ext rfl ?_
  obtain ⟨op, ans⟩ := act
  change _ = (watch.registers ⟨task, ⟨op, ans⟩⟩ task).current
  cases op with
  | createDirAll | openDir | read | create | writeAll | openFile | syncAll => rfl
  | syncDir => cases ans <;> rfl
  | rename source target =>
    cases ans with
    | error => rfl
    | ok =>
      unfold land Watch.registers
      cases stage : watch.stage task with
      | durable text => simp only [Function.update_self, Register.land]
      | idle | created | written | opened => rfl

/-- The action of another task leaves the file as it is. -/
theorem Watch.step_of_ne (watch : Watch ι β) {task : ι} {entry : Entry (sig Name β) ι}
    (different : task ≠ entry.task) :
    ((watch.step entry).stage task, ((watch.step entry).register task).current) =
      (watch.stage task, (watch.register task).current) := by
  refine Prod.ext (Function.update_of_ne different ..) ?_
  change (watch.registers entry task).current = (watch.register task).current
  rcases watch.registers_cases entry with ⟨_, _, text, _, _, landed⟩ | ⟨_, settled⟩ | same
  · rw [landed, Function.update_of_ne different]
  · rw [settled]
    rfl
  · rw [same]

theorem watched_landed (initial : ι → Option (List β)) (history : List (Entry (sig Name β) ι)) (task : ι) :
    (own task history).foldl land (.idle, initial task) =
      ((watched initial history).stage task, ((watched initial history).register task).current) := by
  induction history using List.reverseRecOn with
  | nil => rfl
  | append_singleton history entry ih =>
    obtain ⟨actor, act⟩ := entry
    rw [watched_snoc, own_append, List.foldl_append, ih]
    by_cases same : actor = task
    · subst same
      rw [own_singleton_self]
      exact Watch.step_land ..
    · rw [own_singleton_of_ne same]
      exact (Watch.step_of_ne _ (Ne.symm same)).symm

/-- Only texts of a task's own are ever observed in its file. -/
structure Watch.Within (watch : Watch ι β) (initial : ι → Option (List β)) (texts : ι → Set (List β)) :
    Prop where
  stages : ∀ task, (watch.stage task).Within (texts task)
  registers : ∀ task, (watch.register task).Within (initial task) (texts task)

theorem Watch.Within.step {watch : Watch ι β} {path temp : ι → Name} {initial : ι → Option (List β)}
    {texts : ι → Set (List β)} (within : watch.Within initial texts) {entry : Entry (sig Name β) ι}
    {past : List (Act (sig Name β))} (allowed : permits path temp texts entry.task past entry.act) :
    (watch.step entry).Within initial texts := by
  constructor
  · intro task
    change (Function.update watch.stage entry.task _ task).Within _
    by_cases same : task = entry.task
    · subst same
      rw [Function.update_self]
      exact (within.stages _).advance allowed
    · rw [Function.update_of_ne same]
      exact within.stages task
  · intro task
    change (watch.registers entry task).Within _ _
    rcases watch.registers_cases entry with ⟨_, _, text, _, stage, landed⟩ | ⟨_, settled⟩ | same
    · rw [landed]
      by_cases here : task = entry.task
      · subst here
        have member := within.stages entry.task
        rw [stage] at member
        rw [Function.update_self]
        exact (within.registers _).land member
      · rw [Function.update_of_ne here]
        exact within.registers task
    · rw [settled]
      exact (within.registers task).settle
    · rw [same]
      exact within.registers task

omit [DecidableEq ι] in
theorem Watch.Within.start (initial : ι → Option (List β)) (texts : ι → Set (List β)) :
    (⟨fun _ => .idle, fun task => .start (initial task)⟩ : Watch ι β).Within initial texts := by
  refine ⟨fun _ => trivial, fun task document found => .inl ?_⟩
  simpa [Register.start] using found

/-- A file that is not replaced any more is safe from the next sync of the directory on. -/
theorem watched_settled (initial : ι → Option (List β)) (earlier later : List (Entry (sig Name β) ι))
    (syncer : ι) {task : ι}
    (unreplaced : ∀ source target, renamed task source target ∉ later) :
    ((watched initial (earlier ++ dirSynced syncer :: later)).register task).Safe := by
  induction later using List.reverseRecOn with
  | nil =>
    rw [watched_snoc]
    rfl
  | append_singleton later entry ih =>
    have before := ih fun source target member => unreplaced source target (List.mem_append_left _ member)
    rw [← List.cons_append, ← List.append_assoc, watched_snoc]
    generalize watched initial (earlier ++ dirSynced syncer :: later) = watch at before ⊢
    change (watch.registers entry task).Safe
    rcases watch.registers_cases entry with ⟨source, target, text, act, _, landed⟩ | ⟨_, settled⟩ | same
    · have different : task ≠ entry.task := by
        intro same
        apply unreplaced source target
        rw [same, renamed, ← act]
        exact List.mem_append_right _ (List.mem_singleton_self _)
      rw [landed, Function.update_of_ne different]
      exact before
    · rw [settled]
      rfl
    · rw [same]
      exact before

section Runs

variable [DecidableEq Name] {Result : Type} {start config : Config (machine Name β) ι Result}
  {history : List (Entry (sig Name β) ι)} {path temp : ι → Name} {texts : ι → Set (List β)}

/-- What has been observed in a run of tasks that replace their files is true of the disk. -/
theorem tracks_of_run (names : Separate path temp) (settled : Settled temp start.state)
    (permitted : ∀ task, (start.procs task).Justifies (permits path temp texts task) [])
    (run : Run start history config) :
    Tracks path temp config.state (watched (fun task => start.state.read (path task)) history) := by
  refine Run.invariant permitted (fun history disk =>
    Tracks path temp disk (watched (fun task => start.state.read (path task)) history))
    ⟨settled.kept names, fun _ => trivial⟩ ?_ run
  intro history before task op ans after weather tracks fires allowed
  rw [watched_snoc]
  exact tracks.step names (watched_stage _ history task) (Option.some.inj fires) allowed

theorem within_of_run (initial : ι → Option (List β))
    (permitted : ∀ task, (start.procs task).Justifies (permits path temp texts task) [])
    (run : Run start history config) : (watched initial history).Within initial texts := by
  refine Run.invariant permitted (fun history _ => (watched initial history).Within initial texts)
    (.start initial texts) ?_ run
  intro history before task op ans after weather within fires allowed
  rw [watched_snoc]
  exact within.step allowed

end Runs

end Results

end Storage
