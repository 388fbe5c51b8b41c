import FileCluster.Settings.Basic

/-!
Settings of a naming server.
-/

namespace FileCluster

/-- The port at which clients find a naming server. -/
def servicePort : UInt16 := 6000

/-- The port at which storage servers find a naming server. -/
def registrationPort : UInt16 := 6001

/-- Where a naming server listens. -/
structure NamingSettings where
  service : SocketAddr
  registration : SocketAddr
  deriving DecidableEq, Repr

namespace NamingSettings

/-- The variable with the address of the service for clients. -/
def serviceVariable : String := "DFS_SERVICE_ADDR"

/-- The variable with the address of the service for storage servers. -/
def registrationVariable : String := "DFS_REGISTRATION_ADDR"

/-- Both services at every address and at their own ports. -/
def default : NamingSettings := ⟨.any servicePort, .any registrationPort⟩

/-- Settings from the texts of the two addresses. -/
def resolve (service registration : Option String) : Except SettingError NamingSettings := do
  let service ← Setting.readOr serviceVariable service default.service
  let registration ← Setting.readOr registrationVariable registration default.registration
  return ⟨service, registration⟩

/-- Settings from an environment. -/
def ofEnvironment (env : Environment) : Except SettingError NamingSettings :=
  resolve (env.get? serviceVariable) (env.get? registrationVariable)

end NamingSettings

end FileCluster
