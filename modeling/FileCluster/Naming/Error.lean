import FileCluster.Remote.CallError
import FileCluster.Wire.Basic

/-!
Errors of the naming service.

Every case but `call` travels to the caller of the service; `call` tells the caller that the
service was not reached or did not answer.
-/

namespace FileCluster

/-- Why the naming service did not do what it was asked. -/
inductive NamingError where
  /-- the path, or the directory that it should be in, does not exist -/
  | notFound (path : Path)
  /-- the storage server has registered before -/
  | alreadyRegistered
  /-- there is no storage server to put a file on -/
  | noStorageServers
  /-- the storage server chosen for a file could not be commanded -/
  | storageUnavailable (reason : String)
  /-- the call failed -/
  | call (e : CallError)
  deriving DecidableEq, Repr

namespace NamingError

/-- The wording of an error. -/
def message : NamingError → String
  | .notFound p => "path not found: " ++ p.text
  | .alreadyRegistered => "storage server is already registered"
  | .noStorageServers => "no storage servers are registered"
  | .storageUnavailable reason => "storage server unavailable: " ++ reason
  | .call e => e.message

/-- The wordings of an error and of what caused it, the error first. -/
def causes : NamingError → List String
  | .call e => e.causes
  | e => [e.message]

/-- The wire form: the name of the case, alone or as the only key of what the case holds. -/
def encode : NamingError → Except EncodeError Json
  | .notFound p => .ok (.object [("NotFound", .string p.text)])
  | .alreadyRegistered => .ok (.string "AlreadyRegistered")
  | .noStorageServers => .ok (.string "NoStorageServers")
  | .storageUnavailable reason => .ok (.object [("StorageUnavailable", .string reason)])
  | .call _ => .error ⟨"NamingError", "Rmi"⟩

/-- Reads an error. -/
def decode (v : Json) : Except DecodeError NamingError := do
  let (name, held) ← Wire.decodeCase v
  match name with
  | "NotFound" => return .notFound (← Wire.caseValue held Wire.decodePath)
  | "AlreadyRegistered" =>
    Wire.caseUnit held
    return .alreadyRegistered
  | "NoStorageServers" =>
    Wire.caseUnit held
    return .noStorageServers
  | "StorageUnavailable" => return .storageUnavailable (← Wire.caseValue held Wire.decodeString)
  | name =>
    throw (.unknownCase name
      ["NotFound", "AlreadyRegistered", "NoStorageServers", "StorageUnavailable"])

instance : Wire NamingError where
  shape := .choice []
  encode := encode
  decode := decode

end NamingError

end FileCluster
