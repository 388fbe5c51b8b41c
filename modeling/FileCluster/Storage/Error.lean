import FileCluster.Remote.CallError
import FileCluster.Wire.Basic

/-!
Errors of a storage server.

Every case but `call` travels to the caller of the server; `call` tells the caller that the server
was not reached or did not answer.
-/

namespace FileCluster

/-- Why a storage server did not do what it was asked. -/
inductive StorageError where
  /-- the path is no file of this server -/
  | notFound (path : Path)
  /-- a read goes beyond the end of the file -/
  | outOfBounds (path : Path) (offset length size : UInt64)
  /-- the local file system failed -/
  | io (reason : String)
  /-- the call failed -/
  | call (e : CallError)
  deriving DecidableEq, Repr

namespace StorageError

/-- The error that tells of a failure of the local file system. -/
def ofIo (cause : IoError) : StorageError := .io cause.message

/-- The wording of an error. -/
def message : StorageError → String
  | .notFound p => "file not found: " ++ p.text
  | .outOfBounds p offset length size =>
    "read of " ++ toString length ++ " bytes at offset " ++ toString offset ++
      " is out of bounds for " ++ p.text ++ " (" ++ toString size ++ " bytes)"
  | .io reason => "storage I/O failed: " ++ reason
  | .call e => e.message

/-- The wordings of an error and of what caused it, the error first. -/
def causes : StorageError → List String
  | .call e => e.causes
  | e => [e.message]

/-- The wire form: the name of the case as the only key of what the case holds. -/
def encode : StorageError → Except EncodeError Json
  | .notFound p => .ok (.object [("NotFound", .string p.text)])
  | .outOfBounds p offset length size =>
    .ok (.object [("OutOfBounds", .object [("path", .string p.text), ("offset", .ofUInt64 offset),
      ("length", .ofUInt64 length), ("size", .ofUInt64 size)])])
  | .io reason => .ok (.object [("Io", .string reason)])
  | .call _ => .error ⟨"StorageError", "Rmi"⟩

/-- Reads the fields of a read beyond the end of a file. -/
def decodeOutOfBounds (members : List (String × Json)) : Except DecodeError StorageError := do
  let length ← Wire.field? members "length" Wire.decodeUInt64
  let offset ← Wire.field? members "offset" Wire.decodeUInt64
  let path ← Wire.field? members "path" Wire.decodePath
  let size ← Wire.field? members "size" Wire.decodeUInt64
  let path ← Wire.need "path" path
  let offset ← Wire.need "offset" offset
  let length ← Wire.need "length" length
  let size ← Wire.need "size" size
  return .outOfBounds path offset length size

/-- Reads an error. -/
def decode (v : Json) : Except DecodeError StorageError := do
  let (name, held) ← Wire.decodeCase v
  match name with
  | "NotFound" => return .notFound (← Wire.caseValue held Wire.decodePath)
  | "OutOfBounds" => decodeOutOfBounds (← Wire.caseMembers held)
  | "Io" => return .io (← Wire.caseValue held Wire.decodeString)
  | name => throw (.unknownCase name ["NotFound", "OutOfBounds", "Io"])

instance : Wire StorageError where
  shape := .choice [("OutOfBounds", .record ["path", "offset", "length", "size"])]
  encode := encode
  decode := decode

end StorageError

end FileCluster
