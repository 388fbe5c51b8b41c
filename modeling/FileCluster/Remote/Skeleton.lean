import FileCluster.Network.Loopback
import FileCluster.Remote.Stub

/-!
Skeletons.

A skeleton is the serving side of an interface. It answers every connection with one frame
(`Interface.serve`) and has a life of its own: it is started on an address, stopped, and may stop
by itself when accepting a connection fails. A notice tells of what has no caller to be told.
-/

namespace FileCluster

/-! ## Serving a connection -/

/-- Answers what a peer sends on a connection: one frame, or the reason why none can be sent. Bytes
that hold no call are answered without running anything. -/
def Interface.serve {m : Type → Type} [Monad m] (I : Interface)
    (implementation : I.Implementation m) (incoming : List UInt8) :
    m (Except CallError Frame) :=
  match ((Frame.read incoming).1 : Except CallError Call) with
  | .error e => pure (Frame.write (Response.refusal e.message))
  | .ok call => do return Frame.write (← I.respond implementation call)

/-- What a skeleton tells its hooks. -/
inductive Notice where
  /-- accepting a connection failed -/
  | listenError (cause : IoError)
  /-- a connection could not be served -/
  | serviceError (e : CallError)
  /-- it does not listen any more; there is a cause unless it was told to stop -/
  | stopped (cause : Option CallError)
  deriving DecidableEq, Repr

/-- Sends the answer on a connection. An answer that cannot be sent is told to the hooks. -/
def Outlet.deliver (out : Outlet) : Except CallError Frame → Outlet × List Notice
  | .error e => (out, [.serviceError e])
  | .ok frame =>
    match out.sendFrame frame with
    | (.ok (), out) => (out, [])
    | (.error e, out) => (out, [.serviceError e])

/-- Serves one connection from end to end. -/
def Interface.handle {m : Type → Type} [Monad m] (I : Interface)
    (implementation : I.Implementation m) (incoming : List UInt8) (out : Outlet) :
    m (Outlet × List Notice) := do
  return out.deliver (← I.serve implementation incoming)

/-! ## Starting and stopping -/

/-- What the hooks make of a failure to accept a connection. -/
inductive ListenPolicy where
  /-- stop listening -/
  | stop
  /-- go on -/
  | resume
  /-- break down without a word -/
  | crash
  deriving DecidableEq, Repr

/-- What comes to a listening thread. -/
inductive Arrival where
  /-- a connection, which another thread serves -/
  | connection
  /-- a connection could not be accepted -/
  | failure (cause : IoError)
  deriving DecidableEq, Repr

/-- A listening thread: the address that it listens on, whether it has been told to stop, and
whether it has come to its end. -/
structure Listener where
  address : SocketAddr
  stopping : Bool
  finished : Bool
  deriving DecidableEq, Repr

/-- Tells a listening thread to stop; it notices when something comes next. -/
def Listener.tellToStop (l : Listener) : Listener := { l with stopping := true }

/-- One round of a listening thread. Once it has been told to stop, whatever comes next ends it
without a word. -/
def Listener.round (l : Listener) (policy : ListenPolicy) (a : Arrival) : List Notice × Listener :=
  if l.stopping then ([], { l with finished := true })
  else
    match a with
    | .connection => ([], l)
    | .failure cause =>
      match policy with
      | .resume => ([.listenError cause], l)
      | .stop =>
        ([.listenError cause, .stopped (some (.transport cause))], { l with finished := true })
      | .crash => ([.listenError cause], { l with finished := true })

/-- A skeleton: the address that it was given or has been assigned, and the thread that was started
last unless it has been stopped. The thread may have ended by itself. -/
structure Skeleton where
  address : Option SocketAddr
  listener : Option Listener
  deriving DecidableEq, Repr

namespace Skeleton

/-- A skeleton that does not listen yet. Without an address it takes any. -/
def new (address : Option SocketAddr) : Skeleton := ⟨address, none⟩

/-- Whether a skeleton listens: its thread is alive. -/
def isRunning (s : Skeleton) : Bool := s.listener.any fun l => !l.finished

/-- The address to ask for when starting. -/
def wanted (s : Skeleton) : SocketAddr := s.address.getD (.any 0)

/-- Starts listening. An assigned port is kept for the next start. A thread that has ended by itself
is forgotten, also when the start fails. A start fails if it cannot bind; that a bound socket does
not tell its address, or that no thread can be made after the port was assigned, is left out. -/
def start (s : Skeleton) (net : Network) : Except CallError Unit × Skeleton × Network :=
  if s.isRunning then (.error .alreadyRunning, s, net)
  else
    match net.bind s.wanted with
    | .error cause => (.error (.transport cause), { s with listener := none }, net)
    | .ok (got, net) =>
      let address := if s.wanted.port = 0 then some got else s.address
      (.ok (), ⟨address, some ⟨got, false, false⟩⟩, net)

/-- Something comes to the listening thread, if it is alive. When the thread ends its port becomes
free. -/
def arrive (s : Skeleton) (policy : ListenPolicy) (a : Arrival) (net : Network) :
    List Notice × Skeleton × Network :=
  match s.listener with
  | none => ([], s, net)
  | some l =>
    if l.finished then ([], s, net)
    else
      let (notices, l) := l.round policy a
      (notices, { s with listener := some l }, if l.finished then net.release l.address else net)

/-- Stops a skeleton if it listens: the thread is told to stop, woken up by a connection, and
forgotten. A thread that has ended by itself has told why, so that nothing more is told. -/
def stop (s : Skeleton) (net : Network) : List Notice × Skeleton × Network :=
  if s.isRunning then
    let told : Skeleton := { s with listener := s.listener.map Listener.tellToStop }
    let (notices, s, net) := told.arrive .stop .connection net
    (notices ++ [.stopped none], { s with listener := none }, net)
  else ([], { s with listener := none }, net)

/-- Gives a skeleton up: it is stopped first. -/
def drop (s : Skeleton) (net : Network) : List Notice × Skeleton × Network := s.stop net

/-- Accepting a connection fails. -/
def acceptFails (s : Skeleton) (policy : ListenPolicy) (cause : IoError) (net : Network) :
    List Notice × Skeleton × Network :=
  s.arrive policy (.failure cause) net

/-- Whether a connection to a port reaches a skeleton. -/
def serves (s : Skeleton) (port : Port) : Bool :=
  s.listener.any fun l => !l.finished && l.address.occupies == port

/-- The address through which a skeleton can be called from its own machine. -/
def localStub (I : Interface) (s : Skeleton) : Except CallError (Stub I) :=
  match s.address with
  | none => .error .noAddress
  | some address =>
    if address.port = 0 then .error .noAddress else .ok (Stub.ofAddress address.reachable)

/-- The address through which a skeleton can be called by those who know its machine by a name. -/
def stubAt (I : Interface) (s : Skeleton) (host : String) : Except CallError (Stub I) :=
  match s.address with
  | none => .error .noAddress
  | some address => if address.port = 0 then .error .noAddress else .ok ⟨host, address.port⟩

end Skeleton

/-! ## Waiting for a stop -/

/-- What the skeletons of one server process share: whether one of them has stopped since the
server was started. -/
structure StopFlag where
  stopped : Bool
  deriving DecidableEq, Repr, Inhabited

namespace StopFlag

/-- Nothing has stopped. -/
def clear : StopFlag := ⟨false⟩

/-- The server is started again. -/
def started (_ : StopFlag) : StopFlag := ⟨false⟩

/-- A skeleton's notice. Only the end of listening counts. -/
def notice (f : StopFlag) : Notice → StopFlag
  | .stopped _ => ⟨true⟩
  | _ => f

/-- Several notices in turn. -/
def notices (f : StopFlag) (ns : List Notice) : StopFlag := ns.foldl notice f

/-- The policy of a server process: a failure to accept stops the listener. -/
def policy : ListenPolicy := .stop

/-- Whether waiting for a stop comes to an end without anything else happening. -/
def waitReturns (f : StopFlag) : Bool := f.stopped

end StopFlag

end FileCluster
