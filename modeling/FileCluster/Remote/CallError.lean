import FileCluster.IoError
import FileCluster.Wire.DecodeError

/-!
Why a remote call failed without an answer of the other side.

These are failures to move a call across the network or to find something that runs it. What the
called implementation itself reports is not among them.
-/

namespace FileCluster

/-- What could not be decoded. -/
inductive DecodeFault where
  /-- the payload of a frame is not the message it should be -/
  | unreadable
  | missingArgument (index : Nat)
  | argument (index : Nat) (e : DecodeError)
  | unexpectedArgument (index : Nat)
  | fault (e : DecodeError)
  | returnValue (interface method : String) (e : DecodeError)
  | errorValue (interface method : String) (e : DecodeError)
  | described (text : String)
  deriving DecidableEq, Repr

/-- The wording of a decoding fault; an unreadable frame has none of its own. -/
def DecodeFault.message? : DecodeFault → Option String
  | .unreadable => none
  | .missingArgument i => some ("missing argument " ++ toString i)
  | .argument i e => some ("argument " ++ toString i ++ ": " ++ e.message)
  | .unexpectedArgument i => some ("unexpected argument " ++ toString i)
  | .fault e => some ("malformed fault: " ++ e.message)
  | .returnValue interface method e =>
    some (interface ++ "." ++ method ++ " return value: " ++ e.message)
  | .errorValue interface method e =>
    some (interface ++ "." ++ method ++ " error value: " ++ e.message)
  | .described s => some s

/-- The greatest payload of a frame, in bytes. -/
def maxPayload : Nat := 64 * 1024 * 1024

/-- How the framing rules were broken. -/
inductive FramingFault where
  /-- a payload too long to be sent -/
  | tooLong (length : Nat)
  /-- a peer announced a payload too long to be accepted -/
  | announcedTooLong (length : Nat)
  | described (text : String)
  deriving DecidableEq, Repr

/-- The wording of a framing fault. -/
def FramingFault.message : FramingFault → String
  | .tooLong n =>
    "frame of " ++ toString n ++ " bytes exceeds limit of " ++ toString maxPayload ++ " bytes"
  | .announcedTooLong n =>
    "announced frame of " ++ toString n ++ " bytes exceeds limit of " ++ toString maxPayload ++
      " bytes"
  | .described s => s

/-- Why a call failed. -/
inductive CallError where
  /-- connecting, sending or receiving failed -/
  | transport (cause : IoError)
  /-- a value could not be encoded -/
  | encode (reason : String)
  /-- a message or value could not be decoded -/
  | decode (fault : DecodeFault)
  /-- the framing rules were broken -/
  | protocol (fault : FramingFault)
  /-- the other side could not find or run the method -/
  | dispatch (reason : String)
  /-- the server has no address yet -/
  | noAddress
  /-- the server is running already -/
  | alreadyRunning
  deriving DecidableEq, Repr

/-- The wording of a call's failure. -/
def CallError.message : CallError → String
  | .transport cause => "transport failure: " ++ cause.message
  | .encode reason => "failed to encode message: " ++ reason
  | .decode fault =>
    match fault.message? with
    | none => "failed to decode message"
    | some s => "failed to decode message: " ++ s
  | .protocol fault => "protocol violation: " ++ fault.message
  | .dispatch reason => "remote dispatch failed: " ++ reason
  | .noAddress => "skeleton has no address assigned"
  | .alreadyRunning => "skeleton is already running"

/-- The wordings of a failure and of what caused it, the failure first. -/
def CallError.causes : CallError → List String
  | .transport cause => [(CallError.transport cause).message, cause.message]
  | e => [e.message]

end FileCluster
