import FileCluster.Network.Host

/-!
The network of one machine.

The machine has its loopback addresses, the addresses that stand for all of its own, and those of
its other interfaces. A listener holds one port of one version of the internet protocol, whichever
of the own addresses it was bound to: two addresses of one version do not share a port number, and a
connection to any of them reaches the listener. Port zero asks for a free port; ports are assigned
in turn, so that an assigned port is not assigned again before all others have been. The address
that comes with an assigned port has no scope: interfaces whose addresses need one are left out.
-/

namespace FileCluster

/-- The version of an address. -/
inductive IpVersion where
  | v4
  | v6
  deriving DecidableEq, Repr

/-- The version of an address. -/
def IpAddr.version : IpAddr → IpVersion
  | .v4 _ => .v4
  | .v6 _ => .v6

/-- An address of the machine itself, whatever its interfaces: a loopback address, or the one that
stands for all addresses. -/
def IpAddr.isLocal : IpAddr → Bool
  | .v4 ip => ip.a == 127 || ip == .unspecified
  | .v6 ip => ip == .localhost || ip == .unspecified

/-- What a listener occupies. -/
structure Port where
  version : IpVersion
  number : UInt16
  deriving DecidableEq, Repr

/-- The port that a listener on an address occupies. -/
def SocketAddr.occupies (a : SocketAddr) : Port := ⟨a.ip.version, a.port⟩

/-- The network: the ports in use, how far the assignment of ports has got, and the addresses of the
machine's interfaces besides the local ones. -/
structure Network where
  listeners : List Port
  assigned : Nat
  interfaces : List IpAddr
  deriving Repr, Inhabited

namespace Network

/-- Nobody listens, and the machine has no other interfaces. -/
def empty : Network := ⟨[], 0, []⟩

/-- Whether an address is one of the machine's own. -/
def owns (net : Network) (ip : IpAddr) : Bool := ip.isLocal || net.interfaces.contains ip

/-- The first port that may be assigned. -/
def firstAssigned : Nat := 49152

/-- The number of ports that may be assigned. -/
def assignable : Nat := 16384

/-- The port to be assigned in a turn. -/
def assignedPort (turn : Nat) : UInt16 := UInt16.ofNat (firstAssigned + turn % assignable)

/-- The first of the next `fuel` turns whose port is free. -/
def freeTurn (listeners : List Port) (version : IpVersion) : (fuel turn : Nat) → Option Nat
  | 0, _ => none
  | fuel + 1, turn =>
    if (⟨version, assignedPort turn⟩ : Port) ∈ listeners then
      freeTurn listeners version fuel (turn + 1)
    else some turn

/-- Opens a listener; the answer is the address it got. -/
def bind (net : Network) (address : SocketAddr) : Except IoError (SocketAddr × Network) :=
  if !net.owns address.ip then .error .addressNotAvailable
  else if address.port = 0 then
    match freeTurn net.listeners address.ip.version (net.listeners.length + 1) net.assigned with
    | none => .error .addressInUse
    | some turn =>
      let address := address.withPort (assignedPort turn)
      .ok (address,
        { net with listeners := address.occupies :: net.listeners, assigned := turn + 1 })
  else if address.occupies ∈ net.listeners then .error .addressInUse
  else .ok (address, { net with listeners := address.occupies :: net.listeners })

/-- Closes a listener. -/
def release (net : Network) (address : SocketAddr) : Network :=
  { net with listeners := net.listeners.erase address.occupies }

/-- The listener that a connection to an address reaches. -/
def connectTo (net : Network) (ip : IpAddr) (port : UInt16) : Except IoError Port :=
  if !net.owns ip || port < 1024 then .error .networkUnreachable
  else if (⟨ip.version, port⟩ : Port) ∈ net.listeners then .ok ⟨ip.version, port⟩
  else .error .connectionRefused

/-- Tries the addresses of a host in turn; if none can be reached the last failure counts. -/
def connectFirst (net : Network) (port : UInt16) (failure : IoError) :
    List IpAddr → Except IoError Port
  | [] => .error failure
  | ip :: rest =>
    match net.connectTo ip port with
    | .ok listener => .ok listener
    | .error e => connectFirst net port e rest

/-- The listener that a connection to a host reaches. -/
def connect (net : Network) (host : String) (port : UInt16) : Except IoError Port :=
  match Host.addresses host with
  | .error e => .error e
  | .ok ips => net.connectFirst port .unknownHost ips

end Network

end FileCluster
