import FileCluster.Interfaces.Command
import FileCluster.Interfaces.Storage
import FileCluster.Naming.Error

/-!
Registration of storage servers with the naming server.
-/

namespace FileCluster

/-- A storage server makes itself known: where its files can be had, where it takes commands, and
which files it holds. The answer is the list of those files that it should remove. -/
structure RegistrationRequest where
  storage : StorageStub
  command : CommandStub
  paths : List Path

namespace RegistrationRequest

/-- The arguments of the call. -/
def arguments (r : RegistrationRequest) : List Json :=
  [r.storage.encode.canonical, r.command.encode.canonical,
    .array (r.paths.map fun p => .string p.text)]

/-- The request that a call stands for. -/
def read? (name : String) (args : List Json) : Except CallError RegistrationRequest :=
  if name = "register" then
    Arguments.read args do
      let storage ← Arguments.take StorageStub
      let command ← Arguments.take CommandStub
      let paths ← Arguments.take (List Path)
      Arguments.close
      return ⟨storage, command, paths⟩
  else .error (.dispatch (Interface.noMethod "Registration" name))

end RegistrationRequest

/-- The only method of the registration interface. -/
def registerMethod : Method := ⟨"register", ["StorageStub", "CommandStub", "Vec<Path>"]⟩

/-- The registration interface. -/
def registrationInterface : Interface where
  name := "Registration"
  Request := RegistrationRequest
  Result _ := List Path
  Error := NamingError
  methods := [registerMethod]
  method _ := registerMethod
  arguments := RegistrationRequest.arguments
  read := RegistrationRequest.read?
  resultWire _ := inferInstanceAs (Wire (List Path))
  errorWire := inferInstance
  ofCallError := .call
  message := NamingError.message

/-- The address of a registration service. -/
abbrev RegistrationStub := Stub registrationInterface

end FileCluster
