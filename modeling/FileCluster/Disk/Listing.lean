import FileCluster.Disk.Lookup
import FileCluster.Path.Local

/-!
Listing what a local directory holds.

`Disk.listFiles` gives the path of everything below a directory that is no directory itself, in
path order. A name that cannot be a component of a path makes the listing fail. `Entry.flatten`
shows a whole tree as a list.
-/

namespace FileCluster

/-- Why a local directory was not listed. -/
inductive ListError where
  | path (e : PathError)
  | directoryNotFound (directory : String)
  | notADirectory (directory : String)
  | io (cause : IoError)
  deriving DecidableEq, Repr

/-- The wording of a listing's failure. -/
def ListError.message : ListError → String
  | .path e => e.message
  | .directoryNotFound s => "directory does not exist: " ++ s
  | .notADirectory s => "not a directory: " ++ s
  | .io cause => "I/O error: " ++ cause.message

namespace Disk

/-- The path of a local name below another path. -/
def childOfName (p : Path) (n : Name) : Except ListError Path :=
  match Text.decode? n with
  | none => .error (.path (.invalidComponent (Text.decodeLossy n)))
  | some s =>
    match p.child s with
    | .ok p => .ok p
    | .error e => .error (.path e)

/-- Collects what names of a directory stand for: `visit` gives what lies below a directory. The
first part holds what has been found before. -/
def visitEntries (d : Disk) (visit : List Path → String → Path → Except ListError (List Path))
    (directory : String) (p : Path) (found : List Path) :
    List (Name × Entry) → Except ListError (List Path)
  | [] => .ok found
  | (name, _) :: rest =>
    match childOfName p name with
    | .error e => .error e
    | .ok q =>
      let local_ := Path.appendLocal directory (Text.decodeLossy name)
      if d.isDirectory local_ then
        match visit found local_ q with
        | .error e => .error e
        | .ok found => visitEntries d visit directory p found rest
      else visitEntries d visit directory p (q :: found) rest

/-- Collects what lies below a directory, down to `levels` levels. -/
def visitDirectory (d : Disk) :
    (levels : Nat) → List Path → String → Path → Except ListError (List Path)
  | 0, found, _, _ => .ok found
  | levels + 1, found, directory, p =>
    match d.readDirectory directory with
    | .error e => .error (.io e)
    | .ok entries => d.visitEntries (d.visitDirectory levels) directory p found entries

/-- The paths of all that lies below a directory and is no directory, in path order. There are no
more levels than a local path has bytes. -/
def listFiles (d : Disk) (directory : String) : Except ListError (List Path) :=
  if !d.isThere directory then .error (.directoryNotFound directory)
  else if !d.isDirectory directory then .error (.notADirectory directory)
  else
    match d.visitDirectory (maxPath + 1) [] directory .root with
    | .error e => .error e
    | .ok found => .ok (found.mergeSort fun p q => !decide (q < p))

end Disk

mutual

/-- Every entry below this one, each directory before what it holds, with the names that lead to
it; after those already found, the last one first. -/
def Entry.flattenInto (found : List (Place × Entry)) (place : Place) :
    Entry → List (Place × Entry)
  | .directory entries => flattenEntries found place entries
  | _ => found

/-- Every one of some entries of a directory, and what lies below it. -/
def flattenEntries (found : List (Place × Entry)) (place : Place) :
    List (Name × Entry) → List (Place × Entry)
  | [] => found
  | (name, e) :: rest =>
    let here := place ++ [name]
    flattenEntries (Entry.flattenInto ((here, e) :: found) here e) place rest

end

/-- Every entry below this one, each directory before what it holds. -/
def Entry.flatten (e : Entry) : List (Place × Entry) := (e.flattenInto [] []).reverse

end FileCluster
