import FileCluster.Text.Printable

/-!
Quoted texts.

A quoted text stands between double quotes. Inside, the quote, the backslash and the four controls
with a short name are written with a backslash; a character that is not printable, or that would
merge with the one before it, is written as its code point in hexadecimal.
-/

namespace FileCluster.Text

/-- One character as it stands inside quotes. -/
def quoteChar (c : Char) : String :=
  if c = '"' then "\\\""
  else if c = '\\' then "\\\\"
  else if c = '\n' then "\\n"
  else if c = '\t' then "\\t"
  else if c = '\r' then "\\r"
  else if c = Char.ofNat 0 then "\\0"
  else if isExtender c || !isPrintable c then
    "\\u\x7b" ++ String.ofList (Nat.toDigits 16 c.toNat) ++ "\x7d"
  else c.toString

/-- A text between quotes. -/
def quote (s : String) : String :=
  "\"" ++ s.foldl (fun acc c => acc ++ quoteChar c) "" ++ "\""

end FileCluster.Text
