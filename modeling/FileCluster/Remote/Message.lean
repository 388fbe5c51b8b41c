import FileCluster.Remote.CallError
import FileCluster.Wire.Basic

/-!
The messages of a remote call.

A call names a method, the types of its parameters and its arguments. A response holds a returned
value or a fault: the error that the method raised, or the reason why no method was run.
-/

namespace FileCluster

/-- A call as it is sent. -/
structure Call where
  method : String
  signature : List String
  args : List Json

/-- A response as it is sent: `ok` says whether the payload is a returned value or a fault. -/
structure Response where
  ok : Bool
  payload : Json

/-- Why a call did not return a value. -/
inductive Fault where
  /-- the method raised this error -/
  | application (error : Json)
  /-- no method was run -/
  | dispatch (reason : String)

/-- What a method that was run answered. -/
inductive Reply where
  | returned (value : Json)
  | raised (error : Json)

namespace Call

/-- The fields of a call, as they are written. -/
def encode (c : Call) : Json :=
  .object [("method", .string c.method), ("signature", .array (c.signature.map .string)),
    ("args", .array c.args)]

/-- Reads a call from an object, or from the array of its fields. -/
def decode : Json → Except DecodeError Call
  | .object members => do
    let args ← Wire.field? members "args" (Wire.decodeList .ok)
    let method ← Wire.field? members "method" Wire.decodeString
    let signature ← Wire.field? members "signature" (Wire.decodeList Wire.decodeString)
    let method ← Wire.need "method" method
    let signature ← Wire.need "signature" signature
    let args ← Wire.need "args" args
    return ⟨method, signature, args⟩
  | .array items => do
    let expected := Wire.recordText "Call" 3
    let method ← Wire.element items 0 expected Wire.decodeString
    let signature ← Wire.element items 1 expected (Wire.decodeList Wire.decodeString)
    let args ← Wire.element items 2 expected (Wire.decodeList .ok)
    Wire.noMore items 3
    return ⟨method, signature, args⟩
  | v => Wire.wrongType v "struct Call"

instance : Wire Call where
  shape := .plain (.record ["method", "signature", "args"])
  encode c := .ok c.encode
  decode := decode

end Call

namespace Response

/-- The fields of a response, as they are written. -/
def encode (r : Response) : Json := .object [("ok", .bool r.ok), ("payload", r.payload)]

/-- Reads a response from an object, or from the array of its fields. -/
def decode : Json → Except DecodeError Response
  | .object members => do
    let ok ← Wire.field? members "ok" Wire.decodeBool
    let payload ← Wire.field? members "payload" .ok
    let ok ← Wire.need "ok" ok
    let payload ← Wire.need "payload" payload
    return ⟨ok, payload⟩
  | .array items => do
    let expected := Wire.recordText "Response" 2
    let ok ← Wire.element items 0 expected Wire.decodeBool
    let payload ← Wire.element items 1 expected .ok
    Wire.noMore items 2
    return ⟨ok, payload⟩
  | v => Wire.wrongType v "struct Response"

instance : Wire Response where
  shape := .plain (.record ["ok", "payload"])
  encode r := .ok r.encode
  decode := decode

end Response

namespace Fault

/-- A fault as an object with its kind as the only key. -/
def encode : Fault → Json
  | .application error => .object [("application", error)]
  | .dispatch reason => .object [("dispatch", .string reason)]

/-- Reads a fault. -/
def decode (v : Json) : Except DecodeError Fault := do
  let (name, held) ← Wire.decodeCase v
  match name with
  | "application" => return .application (← Wire.caseValue held .ok)
  | "dispatch" => return .dispatch (← Wire.caseValue held Wire.decodeString)
  | name => throw (.unknownCase name ["application", "dispatch"])

instance : Wire Fault where
  shape := .choice [("application", .any), ("dispatch", .any)]
  encode f := .ok f.encode
  decode := decode

end Fault

namespace Response

/-- A successful response. -/
def ofValue (value : Json) : Response := ⟨true, value⟩

/-- A failed response. -/
def ofFault (fault : Fault) : Response := ⟨false, fault.encode⟩

/-- The response that says why no method was run. -/
def refusal (reason : String) : Response := ofFault (.dispatch reason)

/-- The returned value or the fault that a response holds. -/
def result (r : Response) : Except CallError (Except Fault Json) :=
  if r.ok then .ok (.ok r.payload)
  else
    match Fault.decode r.payload with
    | .ok fault => .ok (.error fault)
    | .error e => .error (.decode (.fault e))

end Response

/-- The response to a call whose method was run. -/
def Reply.response : Reply → Response
  | .returned value => .ofValue value
  | .raised error => .ofFault (.application error)

/-! ## Arguments -/

/-- The arguments of a call while they are being read: those left, and how many were taken. -/
structure Arguments where
  left : List Json
  taken : Nat

namespace Arguments

/-- The arguments of a call, none taken. -/
def ofList (args : List Json) : Arguments := ⟨args, 0⟩

/-- Decodes the next argument. It counts as taken whatever comes of it. -/
def next {α : Type} [Wire α] (a : Arguments) : Except CallError α × Arguments :=
  match a.left with
  | [] => (.error (.decode (.missingArgument a.taken)), ⟨[], a.taken + 1⟩)
  | v :: rest =>
    match Wire.decode v with
    | .ok x => (.ok x, ⟨rest, a.taken + 1⟩)
    | .error e => (.error (.decode (.argument a.taken e)), ⟨rest, a.taken + 1⟩)

/-- Nothing may be left at the end. -/
def finish (a : Arguments) : Except CallError Unit :=
  match a.left with
  | [] => .ok ()
  | _ :: _ => .error (.decode (.unexpectedArgument a.taken))

/-- Takes one argument of a type, in a sequence of such steps. -/
def take (α : Type) [Wire α] : StateT Arguments (Except CallError) α := fun a =>
  match (a.next : Except CallError α × Arguments) with
  | (.ok x, a) => .ok (x, a)
  | (.error e, _) => .error e

/-- Ends a sequence of steps: nothing may be left. -/
def close : StateT Arguments (Except CallError) Unit := fun a =>
  match a.finish with
  | .ok () => .ok ((), a)
  | .error e => .error e

/-- Runs a sequence of steps on the arguments of a call. -/
def read {α : Type} (args : List Json) (steps : StateT Arguments (Except CallError) α) :
    Except CallError α :=
  match steps (ofList args) with
  | .ok (x, _) => .ok x
  | .error e => .error e

/-- The arguments that a value stands for: the items of an array, nothing for null, and otherwise
the value itself. -/
def ofValue : Json → List Json
  | .array items => items
  | .null => []
  | v => [v]

end Arguments

end FileCluster
