import FileCluster.Disk.Change
import FileCluster.Disk.Listing
import FileCluster.Interfaces.Command
import FileCluster.Interfaces.Storage

/-!
The storage service.

A storage service keeps its files below a local directory, its root: every path of the cluster is
the same relative path below the root. The functions here take the root and the disk; those that
change something return the disk after the change, also when they fail.
-/

namespace FileCluster.Storage

/-! ## Data of files -/

/-- The content of the regular file at a path. -/
def content (root : String) (d : Disk) (p : Path) : Except StorageError ByteArray :=
  if p.isRoot then .error (.notFound p)
  else
    match d.entry true (p.toLocal root) with
    | .ok (.file content) => .ok content
    | _ => .error (.notFound p)

/-- The length of a file. -/
def size (root : String) (d : Disk) (p : Path) : Except StorageError UInt64 :=
  match content root d p with
  | .ok data => .ok (UInt64.ofNat data.size)
  | .error e => .error e

/-- The end of some bytes from an offset on, if it is a word. -/
def stop? (offset length : UInt64) : Option UInt64 :=
  let stop := offset + length
  if stop < offset then none else some stop

/-- Bytes of a file; all of them have to be there. -/
def read (root : String) (d : Disk) (p : Path) (offset length : UInt64) :
    Except StorageError ByteArray :=
  match content root d p with
  | .error e => .error e
  | .ok data =>
    let outside : StorageError := .outOfBounds p offset length (UInt64.ofNat data.size)
    match stop? offset length with
    | none => .error outside
    | some stop =>
      if data.size < stop.toNat then .error outside
      else .ok (data.extract offset.toNat stop.toNat)

/-- Puts data into a file at an offset. -/
def write (root : String) (d : Disk) (p : Path) (offset : UInt64) (data : ByteArray) :
    Except StorageError Unit × Disk :=
  match content root d p with
  | .error e => (.error e, d)
  | .ok _ =>
    match d.writeFile (p.toLocal root) offset.toNat data with
    | .ok d => (.ok (), d)
    | .error cause => (.error (.ofIo cause), d)

/-! ## Directories -/

/-- The local path above a local path, if there is one. -/
def localParent? (s : String) : Option String :=
  let trimmed := s.toList.reverse.dropWhile (· = '/')
  if trimmed.isEmpty then none
  else
    let rest := trimmed.dropWhile (· ≠ '/')
    let above := rest.dropWhile (· = '/')
    if rest.isEmpty then some ""
    else if above.isEmpty then some "/"
    else some (String.ofList above.reverse)

/-- A local path and the ones above it, as far as `fuel` allows; the empty path stands for the
directory that relative paths start from and is left out. -/
def localParents (fuel : Nat) (s : String) : List String :=
  match fuel with
  | 0 => []
  | fuel + 1 =>
    if s = "" then []
    else
      match localParent? s with
      | none => [s]
      | some above => s :: localParents fuel above

/-- The local directories above the place of a path, the nearest one first. -/
def directoriesAbove (root : String) (p : Path) : List String :=
  (p.ancestors.reverse.map fun a => a.toLocal root) ++ localParents root.length root

/-- Removes empty directories as long as there is one, the nearest first. -/
def pruneAll (root : String) (d : Disk) : List Path → Disk
  | [] => d
  | p :: above =>
    match d.readDirectory (p.toLocal root) with
    | .ok [] =>
      match d.removeDirectory (p.toLocal root) with
      | .ok d => pruneAll root d above
      | .error _ => d
    | _ => d

/-- Removes the directories above a path that are empty, from the nearest up to the first one that
is not; the root stays. -/
def pruneAbove (root : String) (d : Disk) (p : Path) : Disk :=
  pruneAll root d p.ancestors.reverse

/-! ## Files and subtrees -/

/-- The paths of all files. -/
def files (root : String) (d : Disk) : Except StorageError (List Path) :=
  match d.listFiles root with
  | .ok paths => .ok paths
  | .error e => .error (.io e.message)

/-- Makes an empty file, and the directories above it; the answer is whether the file was not there
before. -/
def create (root : String) (d : Disk) (p : Path) : Except StorageError Bool × Disk :=
  if p.isRoot then (.ok false, d)
  else
    match d.createDirectories (directoriesAbove root p) with
    | (.error cause, d) => (.error (.ofIo cause), d)
    | (.ok (), d) =>
      match d.createFile (p.toLocal root) with
      | .ok d => (.ok true, d)
      | .error .fileExists => (.ok false, d)
      | .error cause => (.error (.ofIo cause), d)

/-- Removes a file, or a directory with everything below it, and then the directories above that
are left empty; the answer is whether there was anything to remove. -/
def delete (root : String) (d : Disk) (p : Path) : Except StorageError Bool × Disk :=
  if p.isRoot then (.ok false, d)
  else
    match d.entry false (p.toLocal root) with
    | .error .noSuchFile => (.ok false, d)
    | .error cause => (.error (.ofIo cause), d)
    | .ok _ =>
      match d.remove (p.toLocal root) with
      | .ok d => (.ok true, pruneAbove root d p)
      | .error cause => (.error (.ofIo cause), d)

/-! ## The interfaces -/

/-- Answers a request about the data of a file. -/
def answer (root : String) (d : Disk) :
    (r : StorageRequest) → Except StorageError r.Result × Disk
  | .size p => (size root d p, d)
  | .read p offset length => (read root d p offset length, d)
  | .write p offset data => write root d p offset data

/-- Carries out a command. -/
def obey (root : String) (d : Disk) : CommandRequest → Except StorageError Bool × Disk
  | .create p => create root d p
  | .delete p => delete root d p

end FileCluster.Storage
