import FileCluster.Json.Outline

/-!
Reading text as a value of an expected shape.

What a text may say depends on what is expected. A record refuses a key of its own that comes
twice and skips members that it does not know without looking into them; it may also be written as
the array of its fields. A choice is a name alone, or an object with the name as its only key.
Where any value will do, a repeated key is no error and everything is looked at. `Json.read?` reads
bytes as a value of a given shape.
-/

namespace FileCluster.Json

/-- The shape of a value, or of what a choice holds. -/
inductive Form where
  /-- any value -/
  | any
  /-- a record with these fields -/
  | record (fields : List String)

/-- What is expected of a text. -/
inductive Shape where
  /-- one value -/
  | plain (form : Form)
  /-- one of several named cases, with the shape of what each holds -/
  | choice (cases : List (String × Form))

/-- The greatest number of levels of arrays and objects. -/
def maxDepth : Nat := 127

/-- The known members of a record, each at most once. -/
def recordMembers? (fields : List String) (depth : Nat) (done : List (String × Json)) :
    List (Option String × Outline) → Option (List (String × Json))
  | [] => some done
  | (none, _) :: _ => none
  | (some k, v) :: rest =>
    if k ∈ fields then
      if (Sorted.lookup k done).isSome then none
      else
        match v.value? depth with
        | none => none
        | some v => recordMembers? fields depth (Sorted.insert k v done) rest
    else recordMembers? fields depth done rest

/-- Reads an outline in a form. An array with a value for each field of a record becomes the
record. -/
def Form.read? (form : Form) (depth : Nat) (o : Outline) : Option Json :=
  match form, o, depth with
  | .record fields, .object members, depth + 1 =>
    (recordMembers? fields depth [] members).map .object
  | .record fields, .array items, depth + 1 =>
    (Outline.items? depth [] items).map fun vs =>
      if vs.length = fields.length then .object (Sorted.ofList (fields.zip vs)) else .array vs
  | _, o, depth => o.value? depth

/-- Reads an outline as a value of a shape. -/
def Shape.read? (shape : Shape) (o : Outline) : Option Json :=
  match shape with
  | .plain form => form.read? maxDepth o
  | .choice cases =>
    match o with
    | .object [(some k, v)] =>
      let form := (Sorted.lookup k cases).getD .any
      (form.read? (maxDepth - 1) v).map fun v => .object [(k, v)]
    | .object _ => none
    | o => o.value? maxDepth

/-- Reads bytes as a value of a shape. -/
def read? (shape : Shape) (bytes : List UInt8) : Option Json :=
  match tokens? bytes with
  | none => none
  | some ts =>
    match Outline.ofTokens? ts with
    | none => none
    | some o => shape.read? o

/-- Reads bytes as any value. -/
def ofBytes? (bytes : List UInt8) : Option Json := read? (.plain .any) bytes

end FileCluster.Json
