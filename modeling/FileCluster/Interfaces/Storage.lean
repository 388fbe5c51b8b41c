import FileCluster.Remote.Stub
import FileCluster.Storage.Error

/-!
Access to the data of files on a storage server.
-/

namespace FileCluster

/-- What may be asked about the data of a file. -/
inductive StorageRequest where
  /-- its length in bytes -/
  | size (path : Path)
  /-- the `length` bytes from `offset` on -/
  | read (path : Path) (offset length : UInt64)
  /-- the data put at `offset`, the file growing if it has to -/
  | write (path : Path) (offset : UInt64) (data : ByteArray)

namespace StorageRequest

/-- What is answered. -/
abbrev Result : StorageRequest → Type
  | .size _ => UInt64
  | .read _ _ _ => ByteArray
  | .write _ _ _ => Unit

/-- The method that a request calls. -/
def method : StorageRequest → Method
  | .size _ => ⟨"size", ["Path"]⟩
  | .read _ _ _ => ⟨"read", ["Path", "u64", "u64"]⟩
  | .write _ _ _ => ⟨"write", ["Path", "u64", "Vec<u8>"]⟩

/-- The arguments of a request's call. -/
def arguments : StorageRequest → List Json
  | .size p => [.string p.text]
  | .read p offset length => [.string p.text, .ofUInt64 offset, .ofUInt64 length]
  | .write p offset data =>
    [.string p.text, .ofUInt64 offset,
      .array (data.data.toList.map fun b => .ofUInt64 b.toUInt64)]

/-- The request that a call stands for. -/
def read? (name : String) (args : List Json) : Except CallError StorageRequest :=
  Arguments.read args do
    let path ← Arguments.take Path
    match name with
    | "size" =>
      Arguments.close
      return .size path
    | "read" =>
      let offset ← Arguments.take UInt64
      let length ← Arguments.take UInt64
      Arguments.close
      return .read path offset length
    | "write" =>
      let offset ← Arguments.take UInt64
      let data ← Arguments.take ByteArray
      Arguments.close
      return .write path offset data
    | name => throw (.dispatch (Interface.noMethod "Storage" name))

/-- The wire form of what is answered. -/
@[reducible] def resultWire : (r : StorageRequest) → Wire r.Result
  | .size _ => inferInstanceAs (Wire UInt64)
  | .read _ _ _ => inferInstanceAs (Wire ByteArray)
  | .write _ _ _ => inferInstanceAs (Wire Unit)

end StorageRequest

/-- The storage interface. -/
def storageInterface : Interface where
  name := "Storage"
  Request := StorageRequest
  Result := StorageRequest.Result
  Error := StorageError
  methods := [⟨"size", ["Path"]⟩, ⟨"read", ["Path", "u64", "u64"]⟩,
    ⟨"write", ["Path", "u64", "Vec<u8>"]⟩]
  method := StorageRequest.method
  arguments := StorageRequest.arguments
  read := StorageRequest.read?
  resultWire := StorageRequest.resultWire
  errorWire := inferInstance
  ofCallError := .call
  message := StorageError.message

/-- The address of a storage service. -/
abbrev StorageStub := Stub storageInterface

end FileCluster
