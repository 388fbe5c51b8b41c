import FileCluster.Remote.Skeleton
import FileCluster.Settings.Storage
import FileCluster.Storage.Service

/-!
The storage server.

One storage service behind two skeletons, one for clients and one for the naming server. A start
has two halves around the call to the naming server: `announce` brings up the skeletons and says
what is to be registered, and `conclude` acts on the reply. Whatever fails, both skeletons are
stopped again.
-/

namespace FileCluster

/-- Why a storage server was not started. -/
inductive ServerError where
  /-- the root is no directory -/
  | rootNotFound (root : String)
  /-- a skeleton could not be started -/
  | call (e : CallError)
  /-- the naming server refused or could not be reached -/
  | registration (e : NamingError)
  /-- the files could not be listed -/
  | storage (e : StorageError)
  deriving DecidableEq, Repr

namespace ServerError

/-- The wording of an error. -/
def message : ServerError → String
  | .rootNotFound root => "storage root is not a directory: " ++ root
  | .call e => e.message
  | .registration e => "registration failed: " ++ e.message
  | .storage e => e.message

/-- The wordings of an error and of what caused it, the error first. -/
def causes : ServerError → List String
  | .call e => e.causes
  | .registration e => (ServerError.registration e).message :: e.causes
  | .storage e => e.causes
  | e => [e.message]

end ServerError

/-- A storage server: its local root, its two skeletons, and whether one of them has stopped since
the last start. -/
structure StorageServer where
  root : String
  storage : Skeleton
  command : Skeleton
  flag : StopFlag

namespace StorageServer

/-- A storage server that has not been started. -/
def new (settings : StorageSettings) : StorageServer where
  root := settings.root
  storage := .new settings.storage
  command := .new settings.command
  flag := .clear

/-- Whether both skeletons listen. -/
def isRunning (s : StorageServer) : Bool := s.storage.isRunning && s.command.isRunning

/-- Stops both skeletons. -/
def stop (s : StorageServer) (net : Network) : StorageServer × Network :=
  let (notices, storage, net) := s.storage.stop net
  let (more, command, net) := s.command.stop net
  ({ s with storage, command, flag := s.flag.notices (notices ++ more) }, net)

/-- Starts both skeletons; after a failure the first one may be left running. -/
def startSkeletons (s : StorageServer) (net : Network) :
    Except CallError Unit × StorageServer × Network :=
  match s.storage.start net with
  | (.error e, storage, net) => (.error e, { s with storage }, net)
  | (.ok (), storage, net) =>
    match s.command.start net with
    | (r, command, net) => (r, { s with storage, command }, net)

/-- What the server registers: its stubs at the name of its machine, and its files. -/
def registrationAt (s : StorageServer) (hostname : String) (disk : Disk) :
    Except ServerError RegistrationRequest :=
  match s.storage.stubAt storageInterface hostname, s.command.stubAt commandInterface hostname with
  | .error e, _ => .error (.call e)
  | _, .error e => .error (.call e)
  | .ok storage, .ok command =>
    match Storage.files s.root disk with
    | .error e => .error (.storage e)
    | .ok paths => .ok ⟨storage, command, paths⟩

/-- The first half of a start: brings up the skeletons and says what is to be registered. -/
def announce (s : StorageServer) (hostname : String) (disk : Disk) (net : Network) :
    Except ServerError RegistrationRequest × StorageServer × Network :=
  if s.isRunning then (.error (.call .alreadyRunning), s, net)
  else if !disk.isDirectory s.root then (.error (.rootNotFound s.root), s, net)
  else
    match { s with flag := s.flag.started }.startSkeletons net with
    | (.error e, s, net) => (.error (.call e), s.stop net)
    | (.ok (), s, net) =>
      match s.registrationAt hostname disk with
      | .error e => (.error e, s.stop net)
      | .ok request => (.ok request, s, net)

/-- Removes files that the naming server did not accept; one that cannot be removed stays. -/
def removeAll (root : String) (disk : Disk) (paths : List Path) : Disk :=
  paths.foldl (fun disk p => (Storage.delete root disk p).2) disk

/-- The second half of a start: acts on the naming server's reply. -/
def conclude (s : StorageServer) (reply : Except NamingError (List Path)) (disk : Disk)
    (net : Network) : Except ServerError Unit × StorageServer × Disk × Network :=
  match reply with
  | .error e =>
    let (s, net) := s.stop net
    (.error (.registration e), s, disk, net)
  | .ok clashing => (.ok (), s, removeAll s.root disk clashing, net)

/-- Accepting a connection fails on the skeleton that serves a port. -/
def acceptFails (s : StorageServer) (port : Port) (cause : IoError) (net : Network) :
    StorageServer × Network :=
  if s.storage.serves port then
    let (notices, storage, net) := s.storage.acceptFails StopFlag.policy cause net
    ({ s with storage, flag := s.flag.notices notices }, net)
  else if s.command.serves port then
    let (notices, command, net) := s.command.acceptFails StopFlag.policy cause net
    ({ s with command, flag := s.flag.notices notices }, net)
  else (s, net)

/-- The stub of the storage service, for use on the same machine. -/
def storageStub (s : StorageServer) : Except CallError StorageStub :=
  s.storage.localStub storageInterface

/-- The stub of the command service, for use on the same machine. -/
def commandStub (s : StorageServer) : Except CallError CommandStub :=
  s.command.localStub commandInterface

end StorageServer

end FileCluster
