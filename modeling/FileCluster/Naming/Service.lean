import FileCluster.Interfaces.Registration
import FileCluster.Interfaces.Service
import FileCluster.Naming.Merge

/-!
The naming service.

Its state is the directory tree and the registry of storage servers. Making and removing files
sends commands to storage servers; how a command is sent is a parameter, so that the service can be
run over a network or over any reply whatever.
-/

namespace FileCluster

/-- The state of the naming service. -/
structure Naming where
  tree : Tree Owner
  registry : Registry
  deriving Inhabited

namespace Naming

/-- The state of a fresh service. -/
def empty : Naming := ⟨.empty, .empty⟩

/-- How a command reaches a storage server, and what comes back. -/
abbrev Commander (m : Type → Type) :=
  CommandStub → CommandRequest → m (Except StorageError Bool)

/-! ## Questions -/

/-- Whether a path is a directory. -/
def isDirectory (s : Naming) (p : Path) : Except NamingError Bool :=
  match s.tree.isDirectory? p with
  | some b => .ok b
  | none => .error (.notFound p)

/-- The names of the entries of a directory. -/
def list (s : Naming) (p : Path) : Except NamingError NameSet :=
  match s.tree.isDirectory? p with
  | some true => .ok (s.tree.children p)
  | _ => .error (.notFound p)

/-- Where the data of a file can be had. -/
def getStorage (s : Naming) (p : Path) : Except NamingError StorageStub :=
  match s.tree.get? p with
  | some (.file o) => .ok o.storage
  | _ => .error (.notFound p)

/-- The parent of a path has to be a directory. -/
def requireParent (s : Naming) (p : Path) : Except NamingError Unit :=
  match p.parent? with
  | none => .error (.notFound p)
  | some parent =>
    match s.tree.isDirectory? parent with
    | some true => .ok ()
    | _ => .error (.notFound parent)

/-! ## Orders -/

/-- Makes an empty directory. -/
def createDirectory (s : Naming) (p : Path) : Except NamingError Bool × Naming :=
  if p.isRoot then (.ok false, s)
  else
    match s.requireParent p with
    | .error e => (.error e, s)
    | .ok () =>
      if s.tree.contains p then (.ok false, s)
      else (.ok true, { s with tree := s.tree.insert p (.directory none) })

/-- The distinct owners of the files among some nodes, in the order of their first file. -/
def holders (nodes : List (Path × Node Owner)) : List Owner :=
  nodes.foldl (fun found e =>
    match e.2 with
    | .file o => if o ∈ found then found else found ++ [o]
    | .directory _ => found) []

section Orders

variable {m : Type → Type} [Monad m]

/-- Makes an empty file on the storage server whose turn it is. The turn passes on even if the
server fails. -/
def createFile (command : Commander m) (s : Naming) (p : Path) :
    m (Except NamingError Bool × Naming) :=
  if p.isRoot then pure (.ok false, s)
  else
    match s.requireParent p with
    | .error e => pure (.error e, s)
    | .ok () =>
      if s.tree.contains p then pure (.ok false, s)
      else
        match s.registry.next with
        | .error e => pure (.error e, s)
        | .ok (owner, registry) => do
          let s := { s with registry }
          match ← command owner.command (.create p) with
          | .ok _ => return (.ok true, { s with tree := s.tree.insert p (.file owner) })
          | .error e =>
            return (.error (.storageUnavailable (owner.text ++ ": " ++ e.message)), s)

/-- Tells storage servers one after the other to remove a path; what they reply does not matter. -/
def commandDeletes (command : Commander m) (p : Path) : List Owner → m Unit
  | [] => pure ()
  | o :: rest => do
    let _ ← command o.command (.delete p)
    commandDeletes command p rest

/-- Removes a file, or a directory and everything below it, from the tree and then from the storage
servers that hold some of it. -/
def delete (command : Commander m) (s : Naming) (p : Path) :
    m (Except NamingError Bool × Naming) :=
  if p.isRoot then pure (.ok false, s)
  else
    match s.requireParent p with
    | .error e => pure (.error e, s)
    | .ok () =>
      if s.tree.contains p then do
        commandDeletes command p (holders (s.tree.subtree p))
        return (.ok true, { s with tree := s.tree.removeSubtree p })
      else pure (.error (.notFound p), s)

/-! ## The interfaces -/

/-- Answers a request of a client. -/
def answer (command : Commander m) (s : Naming) :
    (r : ServiceRequest) → m (Except NamingError r.Result × Naming)
  | .isDirectory p => pure (s.isDirectory p, s)
  | .list p => pure (s.list p, s)
  | .createFile p => createFile command s p
  | .createDirectory p => pure (s.createDirectory p)
  | .delete p => delete command s p
  | .getStorage p => pure (s.getStorage p, s)

end Orders

/-- Registers a storage server and takes its files into the tree; the answer holds the files that
clash. -/
def register (s : Naming) (r : RegistrationRequest) :
    Except NamingError (List Path) × Naming :=
  let owner : Owner := ⟨r.storage, r.command⟩
  match s.registry.enroll owner with
  | .error e => (.error e, s)
  | .ok registry =>
    let (tree, clashing) := s.tree.merge owner r.paths
    (.ok clashing, ⟨tree, registry⟩)

end Naming

end FileCluster
