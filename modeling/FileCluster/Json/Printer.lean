import FileCluster.Json.Basic
import FileCluster.Decimal.Layout

/-!
JSON text.

The compact form: no blanks, members in the order in which the value holds them. Strings are
escaped where the grammar demands it and nowhere else. `Json.append` extends a text by the text of
a value, and `Json.text` is the text of a value alone.
-/

namespace FileCluster.Json

/-- Floating-point numbers are written positionally from `0.00001` up to sixteen whole digits, and
with a signed exponent otherwise. -/
def numberLayout : Decimal.Layout where
  leastPositional := -5
  endPositional := 16
  plus := "+"

/-- The text of a number. -/
def Number.text : Number → String
  | .int n _ => toString n
  | .float x => numberLayout.text x

/-- The lower-case hexadecimal digit of a number below 16. -/
def hexDigit (n : Nat) : Char :=
  if n < 10 then Char.ofNat (n + '0'.toNat) else Char.ofNat (n - 10 + 'a'.toNat)

/-- Extends a text by one character as it stands inside a JSON string. -/
def appendChar (acc : String) (c : Char) : String :=
  if c = '"' then acc ++ "\\\""
  else if c = '\\' then acc ++ "\\\\"
  else if 0x20 ≤ c.toNat then acc.push c
  else if c = '\n' then acc ++ "\\n"
  else if c = '\r' then acc ++ "\\r"
  else if c = '\t' then acc ++ "\\t"
  else if c.toNat = 8 then acc ++ "\\b"
  else if c.toNat = 12 then acc ++ "\\f"
  else ((acc ++ "\\u00").push (hexDigit (c.toNat / 16))).push (hexDigit (c.toNat % 16))

/-- Extends a text by a JSON string. -/
def appendString (acc : String) (s : String) : String :=
  (s.foldl appendChar (acc.push '"')).push '"'

mutual

/-- Extends a text by the text of a value. -/
def append (acc : String) : Json → String
  | .null => acc ++ "null"
  | .bool true => acc ++ "true"
  | .bool false => acc ++ "false"
  | .number n => acc ++ n.text
  | .string s => appendString acc s
  | .array [] => acc ++ "[]"
  | .array (v :: rest) => (appendItems (append (acc.push '[') v) rest).push ']'
  | .object [] => acc ++ "\x7b\x7d"
  | .object ((k, v) :: rest) =>
    (appendMembers (append ((appendString (acc ++ "\x7b") k).push ':') v) rest) ++ "\x7d"

/-- Extends a text by further items, each after a comma. -/
def appendItems (acc : String) : List Json → String
  | [] => acc
  | v :: rest => appendItems (append (acc.push ',') v) rest

/-- Extends a text by further members, each after a comma. -/
def appendMembers (acc : String) : List (String × Json) → String
  | [] => acc
  | (k, v) :: rest =>
    appendMembers (append ((appendString (acc.push ',') k).push ':') v) rest

end

/-- The compact text of a value. -/
def text (v : Json) : String := append "" v

end FileCluster.Json
