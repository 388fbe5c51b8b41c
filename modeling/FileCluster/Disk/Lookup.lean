import FileCluster.Disk.Basic
import FileCluster.IoError

/-!
From local paths to places.

A local path is read from the top of the disk, whether it begins with a slash or not: `.` stays,
`..` goes up, a link is replaced by its target. A name of more than 255 bytes, a path of more than
4095 bytes, more than forty links and a name below something that is no directory are refused, as
is a path with a NUL byte. Local paths are texts: the bytes of names and of links may be any, but a
path that is not UTF-8 is not asked for.
-/

namespace FileCluster

namespace Disk

/-- Where a path leads. -/
inductive Target where
  /-- to an entry -/
  | found (place : Place) (entry : Entry)
  /-- to a name that its directory does not have -/
  | missing (directory : Place) (name : Name)

/-- The pieces of a path between slashes, empty ones included. -/
def splitPath : List UInt8 → List Name
  | [] => [[]]
  | b :: bs =>
    if b = 0x2f then [] :: splitPath bs
    else
      match splitPath bs with
      | [] => [[b]]
      | n :: ns => (b :: n) :: ns

/-- The names between the slashes of a path. -/
def pathNames (path : List UInt8) : List Name := (splitPath path).filter (· ≠ [])

/-- The steps of a path; a slash at its end counts as a step to the same place. -/
def steps (path : List UInt8) : List Name :=
  let names := pathNames path
  if path.getLast? = some 0x2f then names ++ [[0x2e]] else names

/-- The longest name. -/
def maxName : Nat := 255

/-- The longest path. -/
def maxPath : Nat := 4095

/-- The greatest number of links on the way. -/
def maxLinks : Nat := 40

/-- Walks from a directory along steps. A link on the way is left to `onLink`, which is given the
directory to go on from and the steps to take; a link at the end only if `follow` says so. -/
def walk (d : Disk) (follow : Bool) (onLink : Place → List Name → Except IoError Target)
    (place : Place) : List Name → Except IoError Target
  | [] =>
    match d.get? place with
    | some e => .ok (.found place e)
    | none => .error .noSuchFile
  | step :: rest =>
    if step = [0x2e] then walk d follow onLink place rest
    else if step = [0x2e, 0x2e] then walk d follow onLink place.dropLast rest
    else if maxName < step.length then .error .nameTooLong
    else
      match d.get? (place ++ [step]) with
      | none => if rest.isEmpty then .ok (.missing place step) else .error .noSuchFile
      | some (.directory _) => walk d follow onLink (place ++ [step]) rest
      | some (.link target) =>
        if rest.isEmpty && !follow then .ok (.found (place ++ [step]) (.link target))
        else onLink (if target.head? = some 0x2f then [] else place) (steps target ++ rest)
      | some e => if rest.isEmpty then .ok (.found (place ++ [step]) e) else .error .notADirectory

/-- Walks along steps, through at most `links` links. -/
def walkLinks (d : Disk) (follow : Bool) : (links : Nat) → Place → List Name → Except IoError Target
  | 0, place, rest => walk d follow (fun _ _ => .error .tooManyLinks) place rest
  | links + 1, place, rest => walk d follow (walkLinks d follow links) place rest

/-- Where a local path leads along the steps that are read from it; `follow` says whether a link at
its end is followed. -/
def lookUp (d : Disk) (read : List UInt8 → List Name) (follow : Bool) (path : String) :
    Except IoError Target :=
  let bytes := Text.encode path
  if 0 ∈ bytes then .error .nulInName
  else if bytes.isEmpty then .error .noSuchFile
  else if maxPath < bytes.length then .error .nameTooLong
  else walkLinks d follow maxLinks [] (read bytes)

/-- Where a local path leads. -/
def resolve (d : Disk) (follow : Bool) (path : String) : Except IoError Target :=
  d.lookUp steps follow path

/-- Where a directory that is to be made at a local path belongs: a slash at the end of the path
does not say that the directory is there already. -/
def resolveNew (d : Disk) (path : String) : Except IoError Target := d.lookUp pathNames false path

/-- The entry at a path. -/
def entry (d : Disk) (follow : Bool) (path : String) : Except IoError Entry :=
  match d.resolve follow path with
  | .ok (.found _ e) => .ok e
  | .ok (.missing _ _) => .error .noSuchFile
  | .error e => .error e

/-- Whether something stands at a path; links are followed. -/
def isThere (d : Disk) (path : String) : Bool := (d.entry true path).isOk

/-- Whether a directory stands at a path; links are followed. -/
def isDirectory (d : Disk) (path : String) : Bool :=
  match d.entry true path with
  | .ok e => e.isDirectory
  | .error _ => false

/-- Whether a regular file stands at a path; links are followed. -/
def isFile (d : Disk) (path : String) : Bool :=
  match d.entry true path with
  | .ok e => e.isFile
  | .error _ => false

/-- The entries of the directory at a path. -/
def readDirectory (d : Disk) (path : String) : Except IoError (List (Name × Entry)) :=
  match d.entry true path with
  | .ok (.directory entries) => .ok entries
  | .ok _ => .error .notADirectory
  | .error e => .error e

/-- The bytes of the file at a path. -/
def readFile (d : Disk) (path : String) : Except IoError ByteArray :=
  match d.entry true path with
  | .ok (.file content) => .ok content
  | .ok (.directory _) => .error .isADirectory
  | .ok _ => .ok ByteArray.empty
  | .error e => .error e

end Disk

end FileCluster
