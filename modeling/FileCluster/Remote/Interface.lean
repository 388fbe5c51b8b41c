import FileCluster.Remote.Message

/-!
Remote interfaces.

An interface is a set of requests, the type of the result of each, an error type, and the wire form
of all three. Its method table says which calls there are; `Interface.read` turns the arguments of
a call back into the request that they stand for. An implementation answers requests in any monad.
-/

namespace FileCluster

/-- A method as it is named in a call: its name and the types of its parameters. -/
structure Method where
  name : String
  params : List String
  deriving DecidableEq, Repr

/-- Whether a call names this method. -/
def Method.matches (m : Method) (name : String) (signature : List String) : Bool :=
  m.name == name && m.params == signature

/-- A remote interface. -/
structure Interface where
  /-- part of the identity of every stub -/
  name : String
  /-- what may be asked -/
  Request : Type
  /-- what is answered -/
  Result : Request → Type
  /-- what may be raised instead -/
  Error : Type
  /-- every method, in the order of its declaration -/
  methods : List Method
  /-- the method that a request calls -/
  method : Request → Method
  /-- the arguments of the call that a request makes -/
  arguments : Request → List Json
  /-- the request that a call of a method stands for -/
  read : String → List Json → Except CallError Request
  resultWire : (r : Request) → Wire (Result r)
  errorWire : Wire Error
  /-- the error that tells of a failed call -/
  ofCallError : CallError → Error
  /-- the wording of an error -/
  message : Error → String

/-- What came of running a method. -/
inductive Outcome (ε α : Type) where
  | returned (x : α)
  | raised (e : ε)
  /-- the implementation broke off without an answer -/
  | crashed

/-- The outcome that an answer stands for. -/
def Outcome.of {ε α : Type} : Except ε α → Outcome ε α
  | .ok x => .returned x
  | .error e => .raised e

namespace Interface

/-- Something that answers the requests of an interface. -/
abbrev Implementation (I : Interface) (m : Type → Type) :=
  (r : I.Request) → m (Outcome I.Error (I.Result r))

/-- The method that a call names. -/
def lookup (I : Interface) (name : String) (signature : List String) : Option Method :=
  I.methods.find? fun m => m.matches name signature

/-- The call that a request makes. -/
def call (I : Interface) (r : I.Request) : Call :=
  ⟨(I.method r).name, (I.method r).params, I.arguments r⟩

/-- The complaint about a method that the interface does not have. -/
def noMethod (interface method : String) : String := interface ++ " has no method " ++ method

/-! ## Running a call -/

/-- What came of dispatching a call. -/
inductive Dispatched where
  | replied (reply : Reply)
  | failed (e : CallError)
  | crashed

/-- The reply that carries an outcome. An error that must not leave the process makes the call
fail. -/
def dispatched (I : Interface) (r : I.Request) : Outcome I.Error (I.Result r) → Dispatched
  | .returned x =>
    match (I.resultWire r).encode x with
    | .ok v => .replied (.returned v.canonical)
    | .error e => .failed (.encode e.message)
  | .raised error =>
    match I.errorWire.encode error with
    | .ok v => .replied (.raised v.canonical)
    | .error e => .failed (.encode (I.message error ++ " (" ++ e.message ++ ")"))
  | .crashed => .crashed

variable {m : Type → Type} [Monad m]

/-- Runs the method of a name on arguments, if they are what the method takes. -/
def dispatch (I : Interface) (implementation : I.Implementation m) (name : String)
    (args : List Json) : m Dispatched :=
  match I.read name args with
  | .error e => pure (.failed e)
  | .ok r => do return I.dispatched r (← implementation r)

/-- The response that tells what came of dispatching a call. -/
def responseTo (I : Interface) (method : String) : Dispatched → Response
  | .replied reply => reply.response
  | .failed e => .refusal e.message
  | .crashed => .refusal (I.name ++ "." ++ method ++ " panicked")

/-- Answers a call. -/
def respond (I : Interface) (implementation : I.Implementation m) (c : Call) : m Response :=
  match I.lookup c.method c.signature with
  | none =>
    pure (.refusal (noMethod I.name (c.method ++ "(" ++ ", ".intercalate c.signature ++ ")")))
  | some method => do
    return I.responseTo method.name (← I.dispatch implementation method.name c.args)

end Interface

end FileCluster
