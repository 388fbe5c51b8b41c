import FileCluster.Interfaces.Storage
import FileCluster.Naming.Error

/-!
What clients ask the naming server.
-/

namespace FileCluster

/-- A question or an order of a client about one path. -/
inductive ServiceRequest where
  /-- whether the path is a directory; if not, it is a file -/
  | isDirectory (path : Path)
  /-- the names of the entries of a directory -/
  | list (path : Path)
  /-- make an empty file -/
  | createFile (path : Path)
  /-- make an empty directory -/
  | createDirectory (path : Path)
  /-- remove a file, or a directory and everything below it -/
  | delete (path : Path)
  /-- where the data of a file can be had -/
  | getStorage (path : Path)
  deriving DecidableEq, Repr

namespace ServiceRequest

/-- What is answered; for the orders, whether anything changed. -/
abbrev Result : ServiceRequest → Type
  | .isDirectory _ => Bool
  | .list _ => NameSet
  | .createFile _ => Bool
  | .createDirectory _ => Bool
  | .delete _ => Bool
  | .getStorage _ => StorageStub

/-- The path of a request. -/
def path : ServiceRequest → Path
  | .isDirectory p => p
  | .list p => p
  | .createFile p => p
  | .createDirectory p => p
  | .delete p => p
  | .getStorage p => p

/-- The name of the method that a request calls. -/
def methodName : ServiceRequest → String
  | .isDirectory _ => "is_directory"
  | .list _ => "list"
  | .createFile _ => "create_file"
  | .createDirectory _ => "create_directory"
  | .delete _ => "delete"
  | .getStorage _ => "get_storage"

/-- The request that a method makes of a path. -/
def ofName? (name : String) (path : Path) : Option ServiceRequest :=
  match name with
  | "is_directory" => some (.isDirectory path)
  | "list" => some (.list path)
  | "create_file" => some (.createFile path)
  | "create_directory" => some (.createDirectory path)
  | "delete" => some (.delete path)
  | "get_storage" => some (.getStorage path)
  | _ => none

/-- The request that a call stands for. -/
def read? (name : String) (args : List Json) : Except CallError ServiceRequest :=
  Arguments.read args do
    let path ← Arguments.take Path
    Arguments.close
    match ofName? name path with
    | some r => return r
    | none => throw (.dispatch (Interface.noMethod "Service" name))

/-- The wire form of what is answered. -/
@[reducible] def resultWire : (r : ServiceRequest) → Wire r.Result
  | .isDirectory _ => inferInstanceAs (Wire Bool)
  | .list _ => inferInstanceAs (Wire NameSet)
  | .createFile _ => inferInstanceAs (Wire Bool)
  | .createDirectory _ => inferInstanceAs (Wire Bool)
  | .delete _ => inferInstanceAs (Wire Bool)
  | .getStorage _ => inferInstanceAs (Wire StorageStub)

end ServiceRequest

/-- The service interface. -/
def serviceInterface : Interface where
  name := "Service"
  Request := ServiceRequest
  Result := ServiceRequest.Result
  Error := NamingError
  methods := ["is_directory", "list", "create_file", "create_directory", "delete",
    "get_storage"].map fun name => ⟨name, ["Path"]⟩
  method r := ⟨r.methodName, ["Path"]⟩
  arguments r := [.string r.path.text]
  read := ServiceRequest.read?
  resultWire := ServiceRequest.resultWire
  errorWire := inferInstance
  ofCallError := .call
  message := NamingError.message

/-- The address of a naming service. -/
abbrev ServiceStub := Stub serviceInterface

end FileCluster
