import FileCluster.Json.Shape
import FileCluster.NameSet
import FileCluster.Wire.DecodeError

/-!
Wire types.

A type has a wire form if its values can be written as JSON values and read back. `Wire.encode`
gives the members of an object in the order in which they are written, `Wire.decode` reads a
canonical value, and `Wire.shape` says what a text has to look like to be read as one. Encoding
fails for values that must not leave the process.
-/

namespace FileCluster

/-- A value that must not leave the process: a case of a type. -/
structure EncodeError where
  type : String
  case : String
  deriving DecidableEq, Repr

/-- The wording of an encoding error. -/
def EncodeError.message (e : EncodeError) : String :=
  "the enum variant " ++ e.type ++ "::" ++ e.case ++ " cannot be serialized"

/-- Types that travel as JSON. -/
class Wire (α : Type) where
  shape : Json.Shape := .plain .any
  encode : α → Except EncodeError Json
  decode : Json → Except DecodeError α

namespace Wire

/-- A value read from the text of a message. -/
def read? {α : Type} [Wire α] (bytes : List UInt8) : Option α :=
  match Json.read? (shape α) bytes with
  | none => none
  | some v =>
    match decode v with
    | .ok x => some x
    | .error _ => none

/-! ## Scalars -/

/-- A decoder's refusal of a value of another type. -/
def wrongType {α : Type} (v : Json) (expected : String) : Except DecodeError α :=
  .error (.invalidType (Found.of v) expected)

/-- A natural number below a bound. -/
def decodeBelow (bound : Nat) (type : String) (v : Json) : Except DecodeError Nat :=
  match v with
  | .number (.int n _) =>
    if 0 ≤ n ∧ n < bound then .ok n.toNat else .error (.invalidValue (.integer n) type)
  | v => wrongType v type

/-- A text. -/
def decodeString : Json → Except DecodeError String
  | .string s => .ok s
  | v => wrongType v "a string"

/-- A truth value. -/
def decodeBool : Json → Except DecodeError Bool
  | .bool b => .ok b
  | v => wrongType v "a boolean"

/-- Nothing. -/
def decodeUnit : Json → Except DecodeError Unit
  | .null => .ok ()
  | v => wrongType v "unit"

/-- A number of 64 bits. -/
def decodeUInt64 (v : Json) : Except DecodeError UInt64 :=
  (decodeBelow UInt64.size "u64" v).map UInt64.ofNat

/-- A number of 16 bits. -/
def decodeUInt16 (v : Json) : Except DecodeError UInt16 :=
  (decodeBelow UInt16.size "u16" v).map UInt16.ofNat

/-- A path in its written form. -/
def decodePath (v : Json) : Except DecodeError Path :=
  match decodeString v with
  | .error e => .error e
  | .ok s =>
    match Path.parse s with
    | .ok p => .ok p
    | .error e => .error (.path e)

instance : Wire String where
  encode s := .ok (.string s)
  decode := decodeString

instance : Wire Bool where
  encode b := .ok (.bool b)
  decode := decodeBool

instance : Wire Unit where
  encode _ := .ok .null
  decode := decodeUnit

instance : Wire UInt64 where
  encode n := .ok (.ofUInt64 n)
  decode := decodeUInt64

instance : Wire Path where
  encode p := .ok (.string p.text)
  decode := decodePath

instance : Wire Json where
  encode v := .ok v
  decode := .ok

/-! ## Sequences -/

/-- Decodes items, after those already decoded, the last one first. -/
def decodeItems {α : Type} (item : Json → Except DecodeError α) (done : List α) :
    List Json → Except DecodeError (List α)
  | [] => .ok done.reverse
  | v :: rest =>
    match item v with
    | .error e => .error e
    | .ok x => decodeItems item (x :: done) rest

/-- A sequence, its items decoded in turn. -/
def decodeList {α : Type} (item : Json → Except DecodeError α) :
    Json → Except DecodeError (List α)
  | .array items => decodeItems item [] items
  | v => wrongType v "a sequence"

/-- A byte. -/
def decodeByte (v : Json) : Except DecodeError UInt8 :=
  (decodeBelow UInt8.size "u8" v).map UInt8.ofNat

instance : Wire (List Path) where
  encode ps := .ok (.array (ps.map fun p => .string p.text))
  decode := decodeList decodePath

instance : Wire NameSet where
  encode s := .ok (.array (s.names.map .string))
  decode v := (decodeList decodeString v).map NameSet.ofList

instance : Wire ByteArray where
  encode data := .ok (.array (data.data.toList.map fun b => .ofUInt64 b.toUInt64))
  decode v := (decodeList decodeByte v).map fun bytes => ⟨bytes.toArray⟩

/-! ## Records and choices -/

/-- The field of a record written as an object; a field that is not there is no error yet. -/
def field? {α : Type} (members : List (String × Json)) (name : String)
    (decode : Json → Except DecodeError α) : Except DecodeError (Option α) :=
  match Sorted.lookup name members with
  | none => .ok none
  | some v => (decode v).map some

/-- A field that has to be there. -/
def need {α : Type} (name : String) : Option α → Except DecodeError α
  | none => .error (.missingField name)
  | some x => .ok x

/-- The description of a record by its number of fields. -/
def recordText (name : String) (count : Nat) : String :=
  "struct " ++ name ++ " with " ++ toString count ++ " elements"

/-- The next field of a record written as an array. -/
def element {α : Type} (items : List Json) (index : Nat) (expected : String)
    (decode : Json → Except DecodeError α) : Except DecodeError α :=
  match items[index]? with
  | none => .error (.invalidLength index expected)
  | some v => decode v

/-- A record written as an array has no items beyond its fields. -/
def noMore (items : List Json) (count : Nat) : Except DecodeError Unit :=
  if count < items.length then
    .error (.invalidLength items.length "fewer elements in array")
  else .ok ()

/-- The name of a case and what it holds, if it holds anything. -/
def decodeCase : Json → Except DecodeError (String × Option Json)
  | .string name => .ok (name, none)
  | .object [(name, v)] => .ok (name, some v)
  | .object _ => .error (.invalidValue .map "map with a single key")
  | v => wrongType v "string or map"

/-- What a case holds that holds one value. -/
def caseValue {α : Type} (held : Option Json) (decode : Json → Except DecodeError α) :
    Except DecodeError α :=
  match held with
  | none => .error (.invalidType .bareCase "newtype variant")
  | some v => decode v

/-- What a case holds that holds nothing. -/
def caseUnit : Option Json → Except DecodeError Unit
  | none => .ok ()
  | some v => decodeUnit v

/-- The members of a case that holds a record. -/
def caseMembers : Option Json → Except DecodeError (List (String × Json))
  | none => .error (.invalidType .bareCase "struct variant")
  | some (.object members) => .ok members
  | some v => wrongType v "struct variant"

end Wire

end FileCluster
