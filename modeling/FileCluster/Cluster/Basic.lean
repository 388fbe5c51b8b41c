import FileCluster.Naming.Server
import FileCluster.Storage.Server

/-!
A cluster on one machine.

Naming servers and storage servers run side by side over one network and one disk. A connection to
a port is answered by the skeleton that listens there; a naming server that answers a client may in
turn make connections to storage servers, which make none.
-/

namespace FileCluster

/-- A server process. -/
inductive Server where
  | naming (s : NamingServer)
  | storage (s : StorageServer)

/-- A machine: its network, its disk and the servers on it, by name. -/
structure Cluster where
  network : Network
  disk : Disk
  servers : List (String × Server)

namespace Cluster

/-- A machine without servers. -/
def ofDisk (disk : Disk) : Cluster := ⟨.empty, disk, []⟩

/-- The server of a name. -/
def server? (c : Cluster) (name : String) : Option Server := c.servers.lookup name

/-- The naming server of a name. -/
def namingServer? (c : Cluster) (name : String) : Option NamingServer :=
  match c.server? name with
  | some (.naming s) => some s
  | _ => none

/-- The storage server of a name. -/
def storageServer? (c : Cluster) (name : String) : Option StorageServer :=
  match c.server? name with
  | some (.storage s) => some s
  | _ => none

/-- Puts a server under a name, in place of the one that has it. -/
def setServer (c : Cluster) (name : String) (s : Server) : Cluster :=
  { c with servers := (name, s) :: c.servers.filter fun e => e.1 ≠ name }

/-- Takes away the server of a name. -/
def dropServer (c : Cluster) (name : String) : Cluster :=
  { c with servers := c.servers.filter fun e => e.1 ≠ name }

/-! ## Connections -/

/-- A skeleton of some server. -/
inductive Endpoint where
  | service (server : String)
  | registration (server : String)
  | storage (server root : String)
  | command (server root : String)

/-- The skeleton of one server that serves a port. -/
def endpointOf? (port : Port) (name : String) : Server → Option Endpoint
  | .naming s =>
    if s.service.serves port then some (.service name)
    else if s.registration.serves port then some (.registration name)
    else none
  | .storage s =>
    if s.storage.serves port then some (.storage name s.root)
    else if s.command.serves port then some (.command name s.root)
    else none

/-- The skeleton that serves a port. -/
def endpoint? (c : Cluster) (port : Port) : Option Endpoint :=
  c.servers.findSome? fun e => endpointOf? port e.1 e.2

/-- Changes the naming service of a naming server. -/
def setNaming (c : Cluster) (name : String) (naming : Naming) : Cluster :=
  match c.namingServer? name with
  | some s => c.setServer name (.naming { s with naming })
  | none => c

/-- The naming service of a naming server. -/
def naming (c : Cluster) (name : String) : Naming :=
  match c.namingServer? name with
  | some s => s.naming
  | none => .empty

/-- Answers a request of a client to a naming server, which sends its commands over the given
connections. -/
def serviceOf (exchange : Stub.Exchange (StateM Cluster)) (name : String) :
    serviceInterface.Implementation (StateM Cluster) := fun r => do
  let command : Naming.Commander (StateM Cluster) := fun stub r => stub.request exchange r
  let (result, naming) ← Naming.answer command ((← get).naming name) r
  modify fun c => c.setNaming name naming
  return .of result

/-- Answers a registration with a naming server. -/
def registrationOf (name : String) :
    registrationInterface.Implementation (StateM Cluster) := fun r => do
  let (result, naming) := ((← get).naming name).register r
  modify fun c => c.setNaming name naming
  return .of result

/-- Answers a request about data below a root. -/
def storageOf (root : String) : storageInterface.Implementation (StateM Cluster) := fun r => do
  let (result, disk) := Storage.answer root (← get).disk r
  modify fun c => { c with disk }
  return .of result

/-- Carries out a command below a root. -/
def commandOf (root : String) : commandInterface.Implementation (StateM Cluster) := fun r => do
  let (result, disk) := Storage.obey root (← get).disk r
  modify fun c => { c with disk }
  return .of result

/-- Answers what is sent to a skeleton. -/
def serveAt (exchange : Stub.Exchange (StateM Cluster)) (sent : List UInt8) :
    Endpoint → StateM Cluster (Except CallError Frame)
  | .service name => serviceInterface.serve (serviceOf exchange name) sent
  | .registration name => registrationInterface.serve (registrationOf name) sent
  | .storage _ root => storageInterface.serve (storageOf root) sent
  | .command _ root => commandInterface.serve (commandOf root) sent

/-- Connections that may lead to further ones, `hops` deep. What a skeleton cannot send leaves the
answer empty. -/
def exchangeWithin : (hops : Nat) → Stub.Exchange (StateM Cluster)
  | 0 => fun _ _ _ => pure (.error .connectionRefused)
  | hops + 1 => fun host port sent => do
    let c ← get
    match c.network.connect host port with
    | .error cause => return .error cause
    | .ok port =>
      match c.endpoint? port with
      | none => return .error .connectionRefused
      | some endpoint =>
        match ← serveAt (exchangeWithin hops) sent endpoint with
        | .ok frame => return .ok frame.bytes
        | .error _ => return .ok []

/-- Connections of a client. A naming server answers one request at a time, so those that a
connection leads to go through each of them once at most, and end at another skeleton. -/
def exchange : Stub.Exchange (StateM Cluster) := fun host port sent => do
  exchangeWithin ((← get).servers.length + 1) host port sent

/-! ## Starting and stopping servers -/

/-- Starts a naming server. -/
def startNaming (c : Cluster) (name : String) : Except CallError Unit × Cluster :=
  match c.namingServer? name with
  | none => (.error .noAddress, c)
  | some s =>
    let (result, s, network) := s.start c.network
    (result, { c with network }.setServer name (.naming s))

/-- Starts a storage server at the name of its machine and registers it. -/
def startStorage (c : Cluster) (name hostname : String) (naming : RegistrationStub) :
    Except ServerError Unit × Cluster :=
  match c.storageServer? name with
  | none => (.error (.call .noAddress), c)
  | some s =>
    match s.announce hostname c.disk c.network with
    | (.error e, s, network) => (.error e, { c with network }.setServer name (.storage s))
    | (.ok request, s, network) =>
      let c := { c with network }.setServer name (.storage s)
      let (reply, c) := (naming.request exchange request).run c
      let (result, s, disk, network) := s.conclude reply c.disk c.network
      (result, { c with disk, network }.setServer name (.storage s))

/-- Stops a server. -/
def stop (c : Cluster) (name : String) : Cluster :=
  match c.server? name with
  | none => c
  | some (.naming s) =>
    let (s, network) := s.stop c.network
    { c with network }.setServer name (.naming s)
  | some (.storage s) =>
    let (s, network) := s.stop c.network
    { c with network }.setServer name (.storage s)

/-- Accepting a connection fails on a port of a server. -/
def acceptFails (c : Cluster) (name : String) (port : Port) (cause : IoError) : Cluster :=
  match c.server? name with
  | none => c
  | some (.naming s) =>
    let (s, network) := s.acceptFails port cause c.network
    { c with network }.setServer name (.naming s)
  | some (.storage s) =>
    let (s, network) := s.acceptFails port cause c.network
    { c with network }.setServer name (.storage s)

/-- Whether waiting for a server to stop comes to an end without anything else happening. -/
def waitReturns (c : Cluster) (name : String) : Bool :=
  match c.server? name with
  | none => true
  | some (.naming s) => s.flag.waitReturns
  | some (.storage s) => s.flag.waitReturns

/-- A server process ends: it is stopped and gone. -/
def exit (c : Cluster) (name : String) : Cluster := (c.stop name).dropServer name

/-- A server process ends that took its name over: the name goes back to the one before. -/
def exitInFavourOf (c : Cluster) (name : String) (earlier : Option Server) : Cluster :=
  match earlier with
  | none => c.exit name
  | some s => (c.stop name).setServer name s

end Cluster

end FileCluster
