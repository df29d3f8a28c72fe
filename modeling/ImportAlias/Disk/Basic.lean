import ImportAlias.Path.Basic

/-!
# The disk

Everything that is asked of a disk: what a path leads to, what kind of entry it names, the text of a
file and the names in a directory. An answer may depend on the path in any way, so statements about
all disks assume nothing of the tree behind them. Where it matters why there is no answer, the disk
says so.
-/

namespace ImportAlias

/-- The kind of an entry of a directory. -/
inductive EntryKind where
  | file
  | directory
  | link
deriving DecidableEq, Inhabited

/-- Why a disk gives no answer. -/
structure DiskFailure where
  message : String
deriving DecidableEq

namespace DiskFailure

/-- The path leads nowhere. -/
def missing : DiskFailure :=
  ⟨"No such file or directory (os error 2)"⟩

/-- The path leads to something that is no directory. -/
def notDirectory : DiskFailure :=
  ⟨"Not a directory (os error 20)"⟩

end DiskFailure

/-- The answers of a disk. -/
structure Disk where
  /-- What the path leads to when links are followed. -/
  target? : Path → Option EntryKind
  /-- What the last step of the path names, a link included. -/
  entry : Path → Except DiskFailure EntryKind
  /-- The text of the file that the path leads to. -/
  text? : Path → Option String
  /-- The names in the directory that the path leads to. -/
  names : Path → Except DiskFailure (List String)

namespace Disk

/-- Something exists where the path leads. -/
def pathExists (disk : Disk) (path : Path) : Bool :=
  (disk.target? path).isSome

/-- The path leads to a regular file. -/
def isFile (disk : Disk) (path : Path) : Bool :=
  disk.target? path = some .file

/-- The path leads to a directory. -/
def isDirectory (disk : Disk) (path : Path) : Bool :=
  disk.target? path = some .directory

/-- The disk with nothing on it. -/
def empty : Disk where
  target? _ := none
  entry _ := .error .missing
  text? _ := none
  names _ := .error .missing

end Disk

end ImportAlias
