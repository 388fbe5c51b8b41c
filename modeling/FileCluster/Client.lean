import FileCluster.Interfaces.Service

/-!
What a client does with files.

Questions go to the naming service and data to the storage server that it names; how either is
reached is a parameter. Data is moved in pieces of at most `pieceSize` bytes. What has been written
out before a failure stays written.
-/

namespace FileCluster

/-- Why a client's command broke off. -/
inductive ClientError where
  | naming (e : NamingError)
  | storage (e : StorageError)
  /-- reading a piece failed -/
  | reading (path : Path) (offset : Nat) (e : StorageError)
  /-- writing a piece failed -/
  | writing (path : Path) (offset : Nat) (e : StorageError)
  deriving DecidableEq, Repr

/-- The wordings of an error and of what caused it, the error first. -/
def ClientError.causes : ClientError → List String
  | .naming e => e.causes
  | .storage e => e.causes
  | .reading p n e => ("reading " ++ p.text ++ " at offset " ++ toString n) :: e.causes
  | .writing p n e => ("writing " ++ p.text ++ " at offset " ++ toString n) :: e.causes

namespace Client

/-- The most bytes that are moved in one call. -/
def pieceSize : Nat := 1024 * 1024

/-- How a client reaches the naming service. -/
abbrev Service (m : Type → Type) := (r : ServiceRequest) → m (Except NamingError r.Result)

/-- How a client reaches storage servers. -/
abbrev Storages (m : Type → Type) :=
  StorageStub → (r : StorageRequest) → m (Except StorageError r.Result)

variable {m : Type → Type} [Monad m]

/-- What was written out, and why no more was if something failed. -/
structure Output where
  data : ByteArray
  failure : Option ClientError

namespace Output

/-- A text, all of it written out. -/
def ofText (s : String) : Output := ⟨s.toUTF8, none⟩

/-- Nothing written out because something failed. -/
def failed (e : ClientError) : Output := ⟨.empty, some e⟩

end Output

/-! ## Questions -/

/-- The entries of a directory, one on a line. -/
def list (service : Service m) (p : Path) : m Output := do
  match ← service (.list p) with
  | .error e => return .failed (.naming e)
  | .ok set => return .ofText (set.names.foldl (fun acc n => acc ++ n ++ "\n") "")

/-- Whether a path is a file or a directory. -/
def stat (service : Service m) (p : Path) : m Output := do
  match ← service (.isDirectory p) with
  | .error e => return .failed (.naming e)
  | .ok b => return .ofText (p.text ++ (if b then ": directory\n" else ": file\n"))

/-- The storage server that holds a file. -/
def locate (service : Service m) (p : Path) : m Output := do
  match ← service (.getStorage p) with
  | .error e => return .failed (.naming e)
  | .ok stub => return .ofText (p.text ++ ": " ++ stub.text ++ "\n")

/-! ## Data -/

/-- The pieces in which the bytes from `offset` on of `size` bytes are moved, each by its offset and
its length. -/
def piecesFrom (size offset : Nat) : List (Nat × Nat) :=
  if offset < size then
    let length := min pieceSize (size - offset)
    (offset, length) :: piecesFrom size (offset + length)
  else []
termination_by size - offset
decreasing_by
  unfold pieceSize
  omega

/-- The pieces of `size` bytes. -/
def pieces (size : Nat) : List (Nat × Nat) := piecesFrom size 0

/-- Reads pieces of a file in turn and writes them out. -/
def readPieces (read : (r : StorageRequest) → m (Except StorageError r.Result)) (p : Path)
    (out : ByteArray) : List (Nat × Nat) → m Output
  | [] => pure ⟨out, none⟩
  | (offset, length) :: rest => do
    match ← read (.read p (UInt64.ofNat offset) (UInt64.ofNat length)) with
    | .error e => return ⟨out, some (.reading p offset e)⟩
    | .ok data => readPieces read p (out ++ data) rest

/-- Writes out the content of a file. -/
def cat (service : Service m) (storages : Storages m) (p : Path) : m Output := do
  match ← service (.getStorage p) with
  | .error e => return .failed (.naming e)
  | .ok stub =>
    match ← storages stub (.size p) with
    | .error e => return .failed (.storage e)
    | .ok (size : UInt64) => readPieces (storages stub) p .empty (pieces size.toNat)

/-- Writes pieces of some data into a file in turn. -/
def writePieces (write : (r : StorageRequest) → m (Except StorageError r.Result)) (p : Path)
    (data : ByteArray) : List (Nat × Nat) → m (Except ClientError Unit)
  | [] => pure (.ok ())
  | (offset, length) :: rest => do
    match ← write (.write p (UInt64.ofNat offset) (data.extract offset (offset + length))) with
    | .error e => return .error (.writing p offset e)
    | .ok _ => writePieces write p data rest

/-- Puts data into a file, which is made first if it is not there. What the file holds beyond the
data stays. -/
def put (service : Service m) (storages : Storages m) (p : Path) (data : ByteArray) :
    m (Except ClientError Unit) := do
  match ← service (.createFile p) with
  | .error e => return .error (.naming e)
  | .ok _ =>
    match ← service (.getStorage p) with
    | .error e => return .error (.naming e)
    | .ok stub => writePieces (storages stub) p data (pieces data.size)

end Client

end FileCluster
