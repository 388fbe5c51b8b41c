import FileCluster.Disk.Lookup

/-!
Changes of the local file system.

Every change either happens or fails with a cause and leaves the disk as it was; only
`createDirectories`, which makes several directories in turn, may have made some before it fails.
-/

namespace FileCluster.Disk

/-- Puts a new entry where a path has been found to lead, if nothing is there. -/
def putNew (d : Disk) (e : Entry) (target : Except IoError Target) : Except IoError Disk :=
  match target with
  | .ok (.missing place name) => .ok (d.put (place ++ [name]) (some e))
  | .ok (.found _ _) => .error .fileExists
  | .error cause => .error cause

/-- Makes an entry that is not there yet; a link at the end of the path counts as one. -/
def createNew (d : Disk) (e : Entry) (path : String) : Except IoError Disk :=
  d.putNew e (d.resolve false path)

/-- Makes an empty file that is not there yet. -/
def createFile (d : Disk) (path : String) : Except IoError Disk :=
  d.createNew (.file ByteArray.empty) path

/-- Makes a directory that is not there yet, whether its path ends in a slash or not. -/
def createDirectory (d : Disk) (path : String) : Except IoError Disk :=
  d.putNew .emptyDirectory (d.resolveNew path)

/-- Makes the directory at the first of some paths, each the parent of the one before it, and those
of its parents that are missing. -/
def createDirectories (d : Disk) : List String → Except IoError Unit × Disk
  | [] => (.ok (), d)
  | path :: parents =>
    match d.createDirectory path with
    | .ok d => (.ok (), d)
    | .error .noSuchFile =>
      match createDirectories d parents with
      | (.error e, d) => (.error e, d)
      | (.ok (), d) =>
        match d.createDirectory path with
        | .ok d => (.ok (), d)
        | .error e => if d.isDirectory path then (.ok (), d) else (.error e, d)
    | .error e => if d.isDirectory path then (.ok (), d) else (.error e, d)

/-- Takes away the entry at a path, with everything below it; a link is taken away itself. -/
def remove (d : Disk) (path : String) : Except IoError Disk :=
  match d.resolve false path with
  | .ok (.found place _) => .ok (d.put place none)
  | .ok (.missing _ _) => .error .noSuchFile
  | .error e => .error e

/-- Takes away an empty directory; a link to one does not count. -/
def removeDirectory (d : Disk) (path : String) : Except IoError Disk :=
  match d.resolve false path with
  | .ok (.found place (.directory [])) => .ok (d.put place none)
  | .ok (.found _ (.directory _)) => .error .directoryNotEmpty
  | .ok (.found _ _) => .error .notADirectory
  | .ok (.missing _ _) => .error .noSuchFile
  | .error e => .error e

/-- Bytes overwritten at an offset by others. What lies between the end and the offset becomes
zero; writing nothing changes nothing. -/
def overwrite (content : ByteArray) (offset : Nat) (data : ByteArray) : ByteArray :=
  if data.size = 0 then content
  else
    let gap : ByteArray := ⟨Array.replicate (offset - content.size) 0⟩
    content.extract 0 offset ++ gap ++ data ++ content.extract (offset + data.size) content.size

/-- Writes data into the file at a path; offsets from `2 ^ 63` on do not exist. -/
def writeFile (d : Disk) (path : String) (offset : Nat) (data : ByteArray) : Except IoError Disk :=
  match d.resolve true path with
  | .ok (.found place (.file content)) =>
    if 0x8000000000000000 ≤ offset then .error .invalidArgument
    else .ok (d.put place (some (.file (overwrite content offset data))))
  | .ok (.found _ (.directory _)) => .error .isADirectory
  | .ok (.found _ _) => .ok d
  | .ok (.missing _ _) => .error .noSuchFile
  | .error e => .error e

end FileCluster.Disk
