import LongTrader.Interleave.Pool

/-! A directory of files on a disk that may crash. A crash loses the contents that were not synced,
and may undo the last changes of the directory, each of them as a whole. -/

namespace Storage

open Interleave

/-- Why a file operation fails. -/
inductive IoError where
  | notFound
  | other (reason : String)
  deriving DecidableEq, Repr

/-- The entries of the directory lead to inodes, which hold the contents. -/
structure Disk (Name β : Type) where
  entries : Name → Option Nat
  /-- The directories since its last sync, the latest first. -/
  earlier : List (Name → Option Nat)
  contents : Nat → List β
  /-- Whether the contents of an inode survive a crash. -/
  synced : Nat → Bool
  nextInode : Nat

/-- The atomic operations. What is opened is known by its inode, whatever its name is later on. -/
inductive Op (Name β : Type) where
  | createDirAll
  | create (name : Name)
  | writeAll (inode : Nat) (text : List β)
  | openFile (name : Name)
  | syncAll (inode : Nat)
  | rename (source target : Name)
  | openDir
  | syncDir
  | read (name : Name)

abbrev Op.Ans {Name β : Type} : Op Name β → Type
  | .create _ | .openFile _ => Except IoError Nat
  | .read _ => Except IoError (List β)
  | .createDirAll | .writeAll .. | .syncAll _ | .rename .. | .openDir | .syncDir => Except IoError Unit

/-- Whether an operation goes through. A write that fails may have been under way. -/
inductive Weather where
  | fair
  | fails (reason : String) (written : Nat)

abbrev sig (Name β : Type) : Signature := ⟨Op Name β, Op.Ans⟩

variable {Name β : Type}

namespace Disk

def empty : Disk Name β := ⟨fun _ => none, [], fun _ => [], fun _ => true, 0⟩

/-- What a file holds. -/
def read (disk : Disk Name β) (name : Name) : Option (List β) :=
  (disk.entries name).map disk.contents

/-- The directories that a crash may leave. -/
def directories (disk : Disk Name β) : List (Name → Option Nat) := disk.entries :: disk.earlier

/-- Put text at the start of an inode. -/
def write (disk : Disk Name β) (inode : Nat) (text : List β) : Disk Name β :=
  { disk with
    contents := Function.update disk.contents inode (text ++ (disk.contents inode).drop text.length)
    synced := Function.update disk.synced inode false }

/-- Empty an inode. -/
def truncate (disk : Disk Name β) (inode : Nat) : Disk Name β :=
  { disk with
    contents := Function.update disk.contents inode []
    synced := Function.update disk.synced inode false }

/-- Change the directory. -/
def relink (disk : Disk Name β) (entries : Name → Option Nat) : Disk Name β :=
  { disk with entries, earlier := disk.directories }

variable [DecidableEq Name]

/-- The directory once an inode is moved from one name to another. -/
def moved (entries : Name → Option Nat) (source target : Name) (inode : Nat) : Name → Option Nat :=
  Function.update (Function.update entries source none) target (some inode)

/-- Open a file for writing: an existing one is emptied in its place. -/
def create (disk : Disk Name β) (name : Name) : Nat × Disk Name β :=
  match disk.entries name with
  | some inode => (inode, disk.truncate inode)
  | none =>
    let made := disk.relink (Function.update disk.entries name (some disk.nextInode))
    (disk.nextInode, { made with nextInode := disk.nextInode + 1 }.truncate disk.nextInode)

/-- What an operation answers, and the disk after it. -/
def exec : (op : Op Name β) → Weather → Disk Name β → Op.Ans op × Disk Name β
  | .createDirAll, .fair, disk => (.ok (), disk)
  | .create name, .fair, disk => (.ok (disk.create name).1, (disk.create name).2)
  | .writeAll inode text, .fair, disk => (.ok (), disk.write inode text)
  | .writeAll inode text, .fails reason written, disk =>
    (.error (.other reason), disk.write inode (text.take written))
  | .openFile name, .fair, disk => ((disk.entries name).elim (.error .notFound) .ok, disk)
  | .syncAll inode, .fair, disk =>
    (.ok (), { disk with synced := Function.update disk.synced inode true })
  | .rename source target, .fair, disk =>
    match disk.entries source with
    | none => (.error .notFound, disk)
    | some inode =>
      (.ok (), disk.relink (moved disk.entries source target inode))
  | .openDir, .fair, disk => (.ok (), disk)
  | .syncDir, .fair, disk => (.ok (), { disk with earlier := [] })
  | .read name, .fair, disk => ((disk.read name).elim (.error .notFound) .ok, disk)
  | .createDirAll, .fails reason _, disk | .create _, .fails reason _, disk
  | .openFile _, .fails reason _, disk | .syncAll _, .fails reason _, disk
  | .rename _ _, .fails reason _, disk | .openDir, .fails reason _, disk
  | .syncDir, .fails reason _, disk | .read _, .fails reason _, disk =>
    (.error (.other reason), disk)

/-- The disk that is found after a crash: one of the directories, with anything at all in the inodes
that were not synced. -/
def recover (disk : Disk Name β) (entries : Name → Option Nat) (found : Nat → List β) : Disk Name β where
  entries
  earlier := []
  contents inode := if disk.synced inode then disk.contents inode else found inode
  synced _ := true
  nextInode := disk.nextInode

end Disk

abbrev machine (Name β : Type) [DecidableEq Name] : Machine (sig Name β) where
  State := Disk Name β
  Choice := Weather
  exec op weather disk := some (Disk.exec op weather disk)

end Storage
