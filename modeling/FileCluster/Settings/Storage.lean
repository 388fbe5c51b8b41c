import FileCluster.Interfaces.Registration
import FileCluster.Settings.Naming

/-!
Settings of a storage server.
-/

namespace FileCluster

/-- How a storage server runs: its local root, the name of its machine, where the naming server
takes registrations, and the addresses to listen on, any free ones if they are left out. -/
structure StorageSettings where
  root : String
  hostname : String
  namingHost : String
  registrationPort : UInt16
  storage : Option SocketAddr
  command : Option SocketAddr
  deriving DecidableEq, Repr

namespace StorageSettings

/-- The machine itself. -/
def defaultHost : String := "127.0.0.1"

/-- The variable with the local root. -/
def rootVariable : String := "DFS_STORAGE_ROOT"

/-- The variable with the name of the machine. -/
def hostnameVariable : String := "DFS_STORAGE_HOSTNAME"

/-- The variable with the machine of the naming server. -/
def namingHostVariable : String := "DFS_NAMING_HOST"

/-- The variable with the naming server's port for registrations. -/
def registrationPortVariable : String := "DFS_REGISTRATION_PORT"

/-- The variable with the address of the storage service. -/
def storageVariable : String := "DFS_STORAGE_ADDR"

/-- The variable with the address of the command service. -/
def commandVariable : String := "DFS_COMMAND_ADDR"

/-- Everything but the root as it is if nothing is said. -/
def default (root : String) : StorageSettings :=
  ⟨root, defaultHost, defaultHost, FileCluster.registrationPort, none, none⟩

/-- Settings from texts. The root has to be given; hosts are taken as they are. -/
def resolve (root hostname namingHost registrationPort storage command : Option String) :
    Except SettingError StorageSettings := do
  let root : String ← Setting.readRequired rootVariable root
  let port ← Setting.readOr registrationPortVariable registrationPort FileCluster.registrationPort
  let storage ← Setting.readOptional storageVariable storage
  let command ← Setting.readOptional commandVariable command
  return ⟨root, hostname.getD defaultHost, namingHost.getD defaultHost, port, storage, command⟩

/-- Settings from an environment. -/
def ofEnvironment (env : Environment) : Except SettingError StorageSettings :=
  resolve (env.get? rootVariable) (env.get? hostnameVariable) (env.get? namingHostVariable)
    (env.get? registrationPortVariable) (env.get? storageVariable) (env.get? commandVariable)

/-- Settings of which only the two addresses come from an environment. -/
def ofOptions (root hostname namingHost : String) (registrationPort : UInt16) (env : Environment) :
    Except SettingError StorageSettings := do
  let storage ← Setting.readOptional storageVariable (env.get? storageVariable)
  let command ← Setting.readOptional commandVariable (env.get? commandVariable)
  return ⟨root, hostname, namingHost, registrationPort, storage, command⟩

/-- Where the naming server takes registrations. -/
def registration (s : StorageSettings) : RegistrationStub := ⟨s.namingHost, s.registrationPort⟩

end StorageSettings

end FileCluster
