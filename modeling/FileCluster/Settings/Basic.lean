import FileCluster.Network.Address
import FileCluster.Path.Basic
import FileCluster.Text.Blank
import FileCluster.Text.Numeral

/-!
Settings given as text.

A setting has a name and perhaps a value. Its text is trimmed and then read by the reader of its
type, a `FromText` instance; a text that the reader refuses is reported with the setting's name.
-/

namespace FileCluster

/-- Why a text is not a value of the asked type. -/
inductive ReadError where
  | numeral (e : Text.NumeralError)
  | notBoolean
  | noCharacter
  | manyCharacters
  | notAddress
  | path (e : PathError)
  deriving DecidableEq, Repr

/-- The wording of a reader's refusal. -/
def ReadError.message : ReadError → String
  | .numeral .empty => "cannot parse integer from empty string"
  | .numeral .invalidDigit => "invalid digit found in string"
  | .numeral .tooLarge => "number too large to fit in target type"
  | .numeral .tooSmall => "number too small to fit in target type"
  | .notBoolean => "provided string was not `true` or `false`"
  | .noCharacter => "cannot parse char from empty string"
  | .manyCharacters => "too many characters in string"
  | .notAddress => "invalid socket address syntax"
  | .path e => e.message

/-- Types whose values can be read from a text. -/
class FromText (α : Type) where
  read : String → Except ReadError α

namespace FromText

instance : FromText UInt16 where
  read s :=
    match Text.readNat 65535 s with
    | .ok n => .ok (UInt16.ofNat n)
    | .error e => .error (.numeral e)

instance : FromText UInt64 where
  read s :=
    match Text.readNat 0xffffffffffffffff s with
    | .ok n => .ok (UInt64.ofNat n)
    | .error e => .error (.numeral e)

instance : FromText Int32 where
  read s :=
    match Text.readInt 0x80000000 0x7fffffff s with
    | .ok n => .ok (Int32.ofInt n)
    | .error e => .error (.numeral e)

instance : FromText Bool where
  read s := if s = "true" then .ok true else if s = "false" then .ok false else .error .notBoolean

instance : FromText Char where
  read s :=
    match s.toList with
    | [] => .error .noCharacter
    | [c] => .ok c
    | _ => .error .manyCharacters

instance : FromText String where
  read s := .ok s

instance : FromText SocketAddr where
  read s :=
    match SocketAddr.read? s with
    | some a => .ok a
    | none => .error .notAddress

instance : FromText Path where
  read s :=
    match Path.parse s with
    | .ok p => .ok p
    | .error e => .error (.path e)

end FromText

/-- Why a setting has no value. -/
inductive SettingError where
  | missing (name : String)
  | invalid (name value : String) (reason : ReadError)
  deriving DecidableEq, Repr

/-- The wording of a setting error. -/
def SettingError.message : SettingError → String
  | .missing name => name ++ " must be set"
  | .invalid name value reason =>
    "invalid " ++ name ++ " '" ++ value ++ "': " ++ reason.message

namespace Setting

variable {α : Type} [FromText α]

/-- Reads the trimmed text of a setting. -/
def read (name value : String) : Except SettingError α :=
  let trimmed := Text.trim value
  match FromText.read trimmed with
  | .ok x => .ok x
  | .error e => .error (.invalid name trimmed e)

/-- A setting with a default. -/
def readOr (name : String) (value : Option String) (default : α) : Except SettingError α :=
  match value with
  | none => .ok default
  | some value => read name value

/-- A setting that may be left out. -/
def readOptional (name : String) (value : Option String) : Except SettingError (Option α) :=
  match value with
  | none => .ok none
  | some value => (read name value).map some

/-- A setting that has to be given. -/
def readRequired (name : String) (value : Option String) : Except SettingError α :=
  match value with
  | none => .error (.missing name)
  | some value => read name value

end Setting

/-- The variables of an environment, by name. Values are bytes. -/
structure Environment where
  values : List (String × List UInt8)
  deriving Inhabited

/-- The text of a variable. A variable that is blank or is no text counts as unset. -/
def Environment.get? (env : Environment) (name : String) : Option String :=
  match env.values.lookup name with
  | none => none
  | some bytes =>
    match String.fromUTF8? ⟨bytes.toArray⟩ with
    | none => none
    | some s => if Text.isBlankText s then none else some s

end FileCluster
