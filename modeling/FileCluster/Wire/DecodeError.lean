import FileCluster.Json.Printer
import FileCluster.Path.Basic
import FileCluster.Text.Quoted

/-!
Why a JSON value is not a value of a wire type.
-/

namespace FileCluster

/-- What a decoder met in place of what it expected. -/
inductive Found where
  | null
  | boolean (b : Bool)
  | integer (n : Int)
  | float (x : Binary64)
  | string (s : String)
  | sequence
  | map
  /-- the name of a case, without anything that the case holds -/
  | bareCase
  deriving DecidableEq, Repr

/-- What a JSON value counts as. -/
def Found.of : Json → Found
  | .null => .null
  | .bool b => .boolean b
  | .number (.int n _) => .integer n
  | .number (.float x) => .float x
  | .string s => .string s
  | .array _ => .sequence
  | .object _ => .map

/-- The wording of what was met. -/
def Found.message : Found → String
  | .null => "null"
  | .boolean b => "boolean `" ++ toString b ++ "`"
  | .integer n => "integer `" ++ toString n ++ "`"
  | .float x => "floating point `" ++ Json.numberLayout.text x ++ "`"
  | .string s => "string " ++ Text.quote s
  | .sequence => "sequence"
  | .map => "map"
  | .bareCase => "unit variant"

/-- Why a JSON value does not decode. -/
inductive DecodeError where
  | invalidType (found : Found) (expected : String)
  | invalidValue (found : Found) (expected : String)
  | invalidLength (length : Nat) (expected : String)
  | missingField (name : String)
  | unknownCase (name : String) (known : List String)
  | wrongInterface (expected found : String)
  | path (e : PathError)
  deriving DecidableEq, Repr

/-- A name between backticks. -/
def ticked (name : String) : String := "`" ++ name ++ "`"

/-- Names to choose from. -/
def choiceText : List String → String
  | [] => "nothing"
  | [a] => ticked a
  | [a, b] => ticked a ++ " or " ++ ticked b
  | names => "one of " ++ ", ".intercalate (names.map ticked)

/-- The wording of a decoding error. -/
def DecodeError.message : DecodeError → String
  | .invalidType found expected =>
    "invalid type: " ++ found.message ++ ", expected " ++ expected
  | .invalidValue found expected =>
    "invalid value: " ++ found.message ++ ", expected " ++ expected
  | .invalidLength n expected =>
    "invalid length " ++ toString n ++ ", expected " ++ expected
  | .missingField name => "missing field " ++ ticked name
  | .unknownCase name known =>
    "unknown variant " ++ ticked name ++ ", expected " ++ choiceText known
  | .wrongInterface expected found =>
    "expected a " ++ expected ++ " stub, found a " ++ found ++ " stub"
  | .path e => e.message

end FileCluster
