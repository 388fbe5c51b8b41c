import FileCluster.Remote.Stub
import FileCluster.Storage.Error

/-!
Commands of the naming server to a storage server.
-/

namespace FileCluster

/-- What a storage server may be told to do. -/
inductive CommandRequest where
  /-- make an empty file, and the directories above it -/
  | create (path : Path)
  /-- remove a file, or a directory and everything below it -/
  | delete (path : Path)
  deriving DecidableEq, Repr

namespace CommandRequest

/-- The answer says whether anything changed. -/
abbrev Result : CommandRequest → Type := fun _ => Bool

/-- The path of a command. -/
def path : CommandRequest → Path
  | .create p => p
  | .delete p => p

/-- The method that a request calls. -/
def method : CommandRequest → Method
  | .create _ => ⟨"create", ["Path"]⟩
  | .delete _ => ⟨"delete", ["Path"]⟩

/-- The request that a call stands for. -/
def read? (name : String) (args : List Json) : Except CallError CommandRequest :=
  Arguments.read args do
    let path ← Arguments.take Path
    Arguments.close
    match name with
    | "create" => return .create path
    | "delete" => return .delete path
    | name => throw (.dispatch (Interface.noMethod "Command" name))

end CommandRequest

/-- The command interface. -/
def commandInterface : Interface where
  name := "Command"
  Request := CommandRequest
  Result := CommandRequest.Result
  Error := StorageError
  methods := [⟨"create", ["Path"]⟩, ⟨"delete", ["Path"]⟩]
  method := CommandRequest.method
  arguments r := [.string r.path.text]
  read := CommandRequest.read?
  resultWire _ := inferInstanceAs (Wire Bool)
  errorWire := inferInstance
  ofCallError := .call
  message := StorageError.message

/-- The address of a command service. -/
abbrev CommandStub := Stub commandInterface

end FileCluster
