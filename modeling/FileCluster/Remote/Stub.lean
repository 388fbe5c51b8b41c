import FileCluster.Remote.Frame
import FileCluster.Remote.Interface
import FileCluster.Network.Address

/-!
Stubs.

A stub is the address of something that implements an interface. It is a value like any other: it
can be compared, shown and sent. Calling through it makes one connection, sends one frame and reads
one frame; how connections are made is a parameter.
-/

namespace FileCluster

/-- The address of an implementation of an interface. -/
structure Stub (I : Interface) where
  host : String
  port : UInt16
  deriving DecidableEq, Repr

namespace Stub

variable {I : Interface}

/-- The stub for a socket address; a scope is left out. -/
def ofAddress (a : SocketAddr) : Stub I := ⟨a.ip.text, a.port⟩

/-- The address in short. -/
def location (s : Stub I) : String := s.host ++ ":" ++ toString s.port

/-- How a stub is shown. -/
def text (s : Stub I) : String := I.name ++ " stub at " ++ s.location

/-- How a stub is shown with the names of its fields. -/
def detailedText (s : Stub I) : String :=
  "Stub \x7b interface: " ++ Text.quote I.name ++ ", host: " ++ Text.quote s.host ++ ", port: " ++
    toString s.port ++ " \x7d"

/-! ## Wire form -/

/-- The fields of a stub, as they are written. -/
def encode (s : Stub I) : Json :=
  .object [("interface", .string I.name), ("host", .string s.host),
    ("port", .ofUInt64 s.port.toUInt64)]

/-- A stub of fields, if they name the interface. -/
def ofFields (interface host : String) (port : UInt16) : Except DecodeError (Stub I) :=
  if interface = I.name then .ok ⟨host, port⟩ else .error (.wrongInterface I.name interface)

/-- Reads a stub from an object, or from the array of its fields. -/
def decode : Json → Except DecodeError (Stub I)
  | .object members => do
    let host ← Wire.field? members "host" Wire.decodeString
    let interface ← Wire.field? members "interface" Wire.decodeString
    let port ← Wire.field? members "port" Wire.decodeUInt16
    let interface ← Wire.need "interface" interface
    let host ← Wire.need "host" host
    let port ← Wire.need "port" port
    ofFields interface host port
  | .array items => do
    let expected := Wire.recordText "StubRepr" 3
    let interface ← Wire.element items 0 expected Wire.decodeString
    let host ← Wire.element items 1 expected Wire.decodeString
    let port ← Wire.element items 2 expected Wire.decodeUInt16
    Wire.noMore items 3
    ofFields interface host port
  | v => Wire.wrongType v "struct StubRepr"

instance : Wire (Stub I) where
  shape := .plain (.record ["interface", "host", "port"])
  encode s := .ok s.encode
  decode := decode

/-! ## Calling -/

/-- The answer to a request that a response holds. -/
def answerOf (r : I.Request) (response : Response) : Except I.Error (I.Result r) :=
  match response.result with
  | .error e => .error (I.ofCallError e)
  | .ok (.ok value) =>
    match (I.resultWire r).decode value with
    | .ok x => .ok x
    | .error e => .error (I.ofCallError (.decode (.returnValue I.name (I.method r).name e)))
  | .ok (.error (.application value)) =>
    match I.errorWire.decode value with
    | .ok error => .error error
    | .error e => .error (I.ofCallError (.decode (.errorValue I.name (I.method r).name e)))
  | .ok (.error (.dispatch reason)) => .error (I.ofCallError (.dispatch reason))

/-- The answer to a request that a stream of bytes holds. -/
def readAnswer (r : I.Request) (stream : List UInt8) : Except I.Error (I.Result r) :=
  match (Frame.read stream).1 with
  | .ok response => answerOf r response
  | .error e => .error (I.ofCallError e)

/-- How a connection is made: the bytes sent to a host and port, and all the bytes that come back.
A connection that cannot be made is the only failure. -/
abbrev Exchange (m : Type → Type) :=
  String → UInt16 → List UInt8 → m (Except IoError (List UInt8))

/-- Makes a request of the implementation that a stub points to. A call too long for a frame is not
sent, but it is noticed only once there is a connection. -/
def request {m : Type → Type} [Monad m] (exchange : Exchange m) (s : Stub I) (r : I.Request) :
    m (Except I.Error (I.Result r)) :=
  match Frame.write (I.call r) with
  | .error e => do
    match ← exchange s.host s.port [] with
    | .error cause => return .error (I.ofCallError (.transport cause))
    | .ok _ => return .error (I.ofCallError e)
  | .ok frame => do
    match ← exchange s.host s.port frame.bytes with
    | .error cause => return .error (I.ofCallError (.transport cause))
    | .ok stream => return readAnswer r stream

end Stub

end FileCluster
