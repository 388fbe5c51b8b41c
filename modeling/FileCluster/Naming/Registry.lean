import FileCluster.Interfaces.Command
import FileCluster.Interfaces.Storage
import FileCluster.Naming.Error

/-!
The storage servers known to the naming server.

A server is known by its command stub and registers once. New files are dealt out to the servers in
the order of their registration, one after the other and round again.
-/

namespace FileCluster

/-- A registered storage server: the stub that clients are given and the stub that takes
commands. -/
structure Owner where
  storage : StorageStub
  command : CommandStub
  deriving DecidableEq, Repr

/-- How a server is shown. -/
def Owner.text (o : Owner) : String := o.storage.location

/-- The registered servers. -/
structure Registry where
  /-- the command stubs that have registered -/
  known : List CommandStub
  /-- the servers, in the order of registration -/
  servers : List Owner
  /-- how many files have been dealt out, modulo the range of the counter -/
  cursor : UInt64
  deriving Repr, Inhabited

namespace Registry

/-- No server has registered. -/
def empty : Registry := ⟨[], [], 0⟩

/-- The number of servers. -/
def size (r : Registry) : Nat := r.servers.length

/-- Adds a server whose command stub is not known yet. -/
def enroll (r : Registry) (o : Owner) : Except NamingError Registry :=
  if o.command ∈ r.known then .error .alreadyRegistered
  else .ok { r with known := o.command :: r.known, servers := r.servers ++ [o] }

/-- The server whose turn it is, and the registry with the turn passed on. -/
def next (r : Registry) : Except NamingError (Owner × Registry) :=
  match r.servers[r.cursor.toNat % r.servers.length]? with
  | none => .error .noStorageServers
  | some o => .ok (o, { r with cursor := r.cursor + 1 })

end Registry

end FileCluster
