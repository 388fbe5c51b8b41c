import FileCluster.Naming.Service
import FileCluster.Remote.Skeleton
import FileCluster.Settings.Naming

/-!
The naming server.

One naming service behind two skeletons, one for clients and one for storage servers. It is started
and stopped as a whole; if the second skeleton cannot be started, the first one is stopped again.
-/

namespace FileCluster

/-- A naming server: what the service knows, its two skeletons, and whether one of them has stopped
since the last start. -/
structure NamingServer where
  naming : Naming
  service : Skeleton
  registration : Skeleton
  flag : StopFlag

namespace NamingServer

/-- A naming server that has not been started. -/
def new (settings : NamingSettings) : NamingServer where
  naming := .empty
  service := .new (some settings.service)
  registration := .new (some settings.registration)
  flag := .clear

/-- Whether both skeletons listen. -/
def isRunning (s : NamingServer) : Bool := s.service.isRunning && s.registration.isRunning

/-- Stops the skeleton for clients. -/
def stopService (s : NamingServer) (net : Network) : NamingServer × Network :=
  let (notices, service, net) := s.service.stop net
  ({ s with service, flag := s.flag.notices notices }, net)

/-- Stops the skeleton for storage servers. -/
def stopRegistration (s : NamingServer) (net : Network) : NamingServer × Network :=
  let (notices, registration, net) := s.registration.stop net
  ({ s with registration, flag := s.flag.notices notices }, net)

/-- Stops both skeletons. -/
def stop (s : NamingServer) (net : Network) : NamingServer × Network :=
  let (s, net) := s.stopService net
  s.stopRegistration net

/-- Starts both skeletons. -/
def start (s : NamingServer) (net : Network) : Except CallError Unit × NamingServer × Network :=
  let s := { s with flag := s.flag.started }
  match s.service.start net with
  | (.error e, service, net) => (.error e, { s with service }, net)
  | (.ok (), service, net) =>
    let s := { s with service }
    match s.registration.start net with
    | (.error e, registration, net) =>
      let (s, net) := { s with registration }.stopService net
      (.error e, s, net)
    | (.ok (), registration, net) => (.ok (), { s with registration }, net)

/-- Accepting a connection fails on the skeletons that serve a port. -/
def acceptFails (s : NamingServer) (port : Port) (cause : IoError) (net : Network) :
    NamingServer × Network :=
  if s.service.serves port then
    let (notices, service, net) := s.service.acceptFails StopFlag.policy cause net
    ({ s with service, flag := s.flag.notices notices }, net)
  else if s.registration.serves port then
    let (notices, registration, net) := s.registration.acceptFails StopFlag.policy cause net
    ({ s with registration, flag := s.flag.notices notices }, net)
  else (s, net)

/-- The stub of the service for clients, for use on the same machine. -/
def serviceStub (s : NamingServer) : Except CallError ServiceStub :=
  s.service.localStub serviceInterface

/-- The stub of the service for storage servers, for use on the same machine. -/
def registrationStub (s : NamingServer) : Except CallError RegistrationStub :=
  s.registration.localStub registrationInterface

end NamingServer

end FileCluster
