import FileCluster.Json.Token

/-!
The outline of JSON text.

An outline is what a text says before its strings and numbers are looked at: every member in the
order of the text, repeated keys included, and a string or number without a value where the text
has one that denotes nothing. `Outline.ofTokens?` builds it with an explicit stack, so that a text
may nest as deep as it likes; `Outline.value?` turns an outline into a value, which may not.
-/

namespace FileCluster.Json

/-- What a JSON text says. -/
inductive Outline where
  | null
  | bool (b : Bool)
  | number (n : Option Number)
  | string (s : Option String)
  | array (items : List Outline)
  | object (members : List (Option String × Outline))

namespace Outline

/-- An array or object whose end has not been read: what it holds so far, the last one first. -/
inductive Frame where
  | array (done : List Outline)
  | object (done : List (Option String × Outline)) (key : Option String)

/-- What has to come next. -/
inductive Mode where
  /-- a value -/
  | value
  /-- the first item of an array, or its end -/
  | firstItem
  /-- the first key of an object, or its end -/
  | firstKey
  /-- a further key -/
  | key (done : List (Option String × Outline))
  /-- the colon after a key -/
  | colon (done : List (Option String × Outline)) (key : Option String)
  /-- what follows a complete value -/
  | after (v : Outline)

/-- The state of a reader: the arrays and objects still open, the innermost first, and what has
to come next. -/
structure State where
  stack : List Frame
  mode : Mode

/-- A reader at the beginning of a text. -/
def State.start : State := ⟨[], .value⟩

/-- A value begins with this token. -/
def State.beginValue (stack : List Frame) : Token → Option State
  | .null => some ⟨stack, .after .null⟩
  | .bool b => some ⟨stack, .after (.bool b)⟩
  | .number n => some ⟨stack, .after (.number n)⟩
  | .string s => some ⟨stack, .after (.string s)⟩
  | .openBracket => some ⟨.array [] :: stack, .firstItem⟩
  | .openBrace => some ⟨stack, .firstKey⟩
  | _ => none

/-- One token. -/
def State.step (s : State) (t : Token) : Option State :=
  match s.mode, t with
  | .value, t => beginValue s.stack t
  | .firstItem, .closeBracket =>
    match s.stack with
    | .array done :: stack => some ⟨stack, .after (.array done.reverse)⟩
    | _ => none
  | .firstItem, t => beginValue s.stack t
  | .firstKey, .closeBrace => some ⟨s.stack, .after (.object [])⟩
  | .firstKey, .string k => some ⟨s.stack, .colon [] k⟩
  | .key done, .string k => some ⟨s.stack, .colon done k⟩
  | .colon done k, .colon => some ⟨.object done k :: s.stack, .value⟩
  | .after v, t =>
    match s.stack, t with
    | .array done :: stack, .comma => some ⟨.array (v :: done) :: stack, .value⟩
    | .array done :: stack, .closeBracket => some ⟨stack, .after (.array (v :: done).reverse)⟩
    | .object done k :: stack, .comma => some ⟨stack, .key ((k, v) :: done)⟩
    | .object done k :: stack, .closeBrace =>
      some ⟨stack, .after (.object ((k, v) :: done).reverse)⟩
    | _, _ => none
  | _, _ => none

/-- All tokens, one after the other. -/
def State.run (s : State) : List Token → Option State
  | [] => some s
  | t :: ts =>
    match s.step t with
    | none => none
    | some s => s.run ts

/-- The value read, if the text is complete. -/
def State.result? (s : State) : Option Outline :=
  match s.stack, s.mode with
  | [], .after v => some v
  | _, _ => none

/-- The outline of a list of tokens. -/
def ofTokens? (ts : List Token) : Option Outline :=
  match State.start.run ts with
  | none => none
  | some s => s.result?

mutual

/-- The value that an outline denotes, if all its strings and numbers denote something and it nests
at most `depth` levels. -/
def value? (depth : Nat) : Outline → Option Json
  | .null => some .null
  | .bool b => some (.bool b)
  | .number n => n.map .number
  | .string s => s.map .string
  | .array items =>
    match depth with
    | 0 => none
    | depth + 1 => (items? depth [] items).map .array
  | .object members =>
    match depth with
    | 0 => none
    | depth + 1 => (members? depth [] members).map .object

/-- The values of items, after those already done, the last one first. -/
def items? (depth : Nat) (done : List Json) : List Outline → Option (List Json)
  | [] => some done.reverse
  | v :: rest =>
    match value? depth v with
    | none => none
    | some v => items? depth (v :: done) rest

/-- The values of members, merged into those already done. -/
def members? (depth : Nat) (done : List (String × Json)) :
    List (Option String × Outline) → Option (List (String × Json))
  | [] => some done
  | (k, v) :: rest =>
    match k, value? depth v with
    | some k, some v => members? depth (Sorted.insert k v done) rest
    | _, _ => none

end

end Outline

end FileCluster.Json
