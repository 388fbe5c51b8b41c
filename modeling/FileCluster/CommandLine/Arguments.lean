import FileCluster.Settings.Storage
import FileCluster.Text.Plain

/-!
The arguments of the command line.

Options stand anywhere, as `--name value` or `--name=value`; the common ones may be given before
the command and after it, and then the later one counts. A value is looked at when the next
argument has been recognised, so that of two mistakes an argument that does not belong there hides a
bad value directly before it. After `--` everything is a value.
-/

namespace FileCluster.CommandLine

/-- What a value has to be. -/
inductive ValueKind where
  | text
  | port
  | path
  | localPath
  deriving DecidableEq, Repr

/-- A value that has been read. -/
inductive Value where
  | text (s : String)
  | port (n : UInt16)
  | path (p : Path)

/-- An option or a positional argument: what it is stored under, how it is shown in messages, and
what its value has to be. -/
structure Parameter where
  name : String
  shown : String
  kind : ValueKind
  deriving DecidableEq, Repr

/-- Why arguments make no command. -/
inductive UsageError where
  /-- a value is not what its parameter takes -/
  | invalidValue (value parameter reason : String)
  /-- arguments are missing, repeated or not known -/
  | misused
  deriving DecidableEq, Repr

/-- Text in a style: after the sequence that sets the style, and before the one that ends it. -/
def styled (style s : String) : String := "\x1b[" ++ style ++ "m" ++ s ++ "\x1b[0m"

/-- A complaint about a value, styled for a terminal; other complaints have no fixed text. -/
def UsageError.styledText : UsageError → String
  | .invalidValue value parameter reason =>
    styled "1;31" "error:" ++ " invalid value '" ++ styled "33" value ++ "' for '" ++
      styled "1" parameter ++ "': " ++ reason ++
      "\n\nFor more information, try '" ++ styled "1" "--help" ++ "'.\n"
  | .misused => ""

/-- A text up to the end of its first line. -/
def firstLine (s : String) : String :=
  let line := s.toList.takeWhile (· ≠ '\n')
  String.ofList (if line.getLast? = some '\r' then line.dropLast else line)

/-- The first line of a complaint, as it reads without styles and without control sequences in the
value. -/
def UsageError.message (e : UsageError) : String := firstLine (Text.plain e.styledText)

/-- Reads a value. A port is read as a number of 64 bits and has to be in range. -/
def readValue (p : Parameter) (s : String) : Except UsageError Value :=
  let invalid (reason : String) : Except UsageError Value := .error (.invalidValue s p.shown reason)
  match p.kind with
  | .text => .ok (.text s)
  | .localPath => if s = "" then .error .misused else .ok (.text s)
  | .path =>
    match Path.parse s with
    | .ok path => .ok (.path path)
    | .error e => invalid e.message
  | .port =>
    match Text.readInt 0x8000000000000000 0x7fffffffffffffff s with
    | .error e => invalid (ReadError.numeral e).message
    | .ok n =>
      if 0 ≤ n ∧ n ≤ 65535 then .ok (.port (UInt16.ofNat n.toNat))
      else invalid (toString n ++ " is not in 0..=65535")

/-! ## One level -/

/-- What may stand at one level: options, positional arguments in turn, and the names of commands
that end the level. -/
structure Level where
  options : List Parameter
  positionals : List Parameter
  required : List String
  commands : List String

/-- A level while it is being read: the values so far, a parameter whose value has not been looked
at or not even been seen, how many positional arguments there were, and whether `--` was among
them. -/
structure Reading where
  values : List (String × Value)
  pending : Option (Parameter × Option String)
  position : Nat
  literal : Bool

namespace Reading

/-- Nothing has been read. -/
def start : Reading := ⟨[], none, 0, false⟩

/-- Looks at the value that has not been looked at. -/
def settle (r : Reading) : Except UsageError Reading :=
  match r.pending with
  | none => .ok r
  | some (_, none) => .error .misused
  | some (p, some s) =>
    if (r.values.lookup p.name).isSome then .error .misused
    else
      match readValue p s with
      | .ok v => .ok { r with values := (p.name, v) :: r.values, pending := none }
      | .error e => .error e

/-- Whether an option waits for its value. -/
def isWaiting (r : Reading) : Bool :=
  match r.pending with
  | some (_, none) => true
  | _ => false

end Reading

/-- The name of an option and the value attached to it, without the two dashes. -/
def splitOption (cs : List Char) : String × Option String :=
  let name := cs.takeWhile (· ≠ '=')
  match cs.drop name.length with
  | [] => (String.ofList name, none)
  | _ :: value => (String.ofList name, some (String.ofList value))

namespace Level

/-- An option. -/
def readOption (l : Level) (r : Reading) (cs : List Char) : Except UsageError Reading :=
  let (name, attached) := splitOption cs
  match l.options.find? fun p => p.name == name with
  | none => .error .misused
  | some p =>
    match r.settle with
    | .error e => .error e
    | .ok r =>
      match attached with
      | none => .ok { r with pending := some (p, none) }
      | some s => { r with pending := some (p, some s) }.settle

/-- A positional argument. -/
def readPositional (l : Level) (r : Reading) (s : String) : Except UsageError Reading :=
  match l.positionals[r.position]? with
  | none => .error .misused
  | some p =>
    match r.settle with
    | .error e => .error e
    | .ok r => .ok { r with pending := some (p, some s), position := r.position + 1 }

/-- One argument that does not end the level. -/
def readArgument (l : Level) (r : Reading) (s : String) : Except UsageError Reading :=
  if r.literal then l.readPositional r s
  else
    match s.toList with
    | ['-', '-'] => .ok { r with literal := true }
    | '-' :: '-' :: cs => l.readOption r cs
    | '-' :: _ :: _ => .error .misused
    | _ =>
      match r.pending with
      | some (p, none) => .ok { r with pending := some (p, some s) }
      | _ => l.readPositional r s

/-- Arguments up to the name of a command, which is given back with those after it. -/
def read (l : Level) (r : Reading) : List String →
    Except UsageError (Reading × Option (String × List String))
  | [] => .ok (r, none)
  | s :: rest =>
    if !r.literal && !r.isWaiting && s ∈ l.commands then .ok (r, some (s, rest))
    else
      match l.readArgument r s with
      | .error e => .error e
      | .ok r => l.read r rest

/-- The values of a level once all of it has been read. -/
def finish (l : Level) (r : Reading) : Except UsageError (List (String × Value)) :=
  match r.settle with
  | .error e => .error e
  | .ok r =>
    if l.required.all fun name => (r.values.lookup name).isSome then .ok r.values
    else .error .misused

end Level

/-! ## The commands -/

/-- What holds for every command: where the naming server is. -/
structure Options where
  namingHost : String
  servicePort : UInt16
  registrationPort : UInt16
  deriving DecidableEq, Repr

/-- What a command line asks for. -/
inductive Command where
  /-- run a naming server -/
  | naming
  /-- run a storage server -/
  | storage (root hostname : String)
  | list (p : Path)
  | stat (p : Path)
  | makeDirectory (p : Path)
  | touch (p : Path)
  | remove (p : Path)
  | locate (p : Path)
  | cat (p : Path)
  /-- put a local file into the cluster -/
  | put (p : Path) (file : String)
  deriving DecidableEq, Repr

/-- The options that every command takes. -/
def commonOptions : List Parameter := [
  ⟨"naming-host", "--naming-host <NAMING_HOST>", .text⟩,
  ⟨"service-port", "--service-port <SERVICE_PORT>", .port⟩,
  ⟨"registration-port", "--registration-port <REGISTRATION_PORT>", .port⟩]

/-- The path that a command is about. -/
def pathParameter : Parameter := ⟨"path", "<PATH>", .path⟩

/-- The level before the command. -/
def topLevel : Level where
  options := commonOptions
  positionals := []
  required := []
  commands := ["naming", "storage", "ls", "stat", "mkdir", "touch", "rm", "where", "cat", "put"]

/-- The level after a command. -/
def levelOf (command : String) : Level :=
  match command with
  | "naming" => ⟨commonOptions, [], [], []⟩
  | "storage" =>
    ⟨commonOptions ++ [⟨"root", "--root <ROOT>", .localPath⟩,
      ⟨"hostname", "--hostname <HOSTNAME>", .text⟩], [], ["root"], []⟩
  | "put" =>
    ⟨commonOptions, [pathParameter, ⟨"local", "<LOCAL>", .localPath⟩], ["path", "local"], []⟩
  | _ => ⟨commonOptions, [pathParameter], ["path"], []⟩

/-- A text among values. -/
def textOf? (values : List (String × Value)) (name : String) : Option String :=
  match values.lookup name with
  | some (.text s) => some s
  | _ => none

/-- A port among values. -/
def portOf? (values : List (String × Value)) (name : String) : Option UInt16 :=
  match values.lookup name with
  | some (.port n) => some n
  | _ => none

/-- The path among values. -/
def pathOf (values : List (String × Value)) : Path :=
  match values.lookup "path" with
  | some (.path p) => p
  | _ => .root

/-- The common options among values, as they are if nothing is said. -/
def optionsOf (values : List (String × Value)) : Options where
  namingHost := (textOf? values "naming-host").getD StorageSettings.defaultHost
  servicePort := (portOf? values "service-port").getD FileCluster.servicePort
  registrationPort := (portOf? values "registration-port").getD FileCluster.registrationPort

/-- The command of a name with its values. -/
def commandOf (name : String) (values : List (String × Value)) : Command :=
  let p := pathOf values
  match name with
  | "naming" => .naming
  | "storage" =>
    .storage ((textOf? values "root").getD "")
      ((textOf? values "hostname").getD StorageSettings.defaultHost)
  | "ls" => .list p
  | "stat" => .stat p
  | "mkdir" => .makeDirectory p
  | "touch" => .touch p
  | "rm" => .remove p
  | "where" => .locate p
  | "cat" => .cat p
  | _ => .put p ((textOf? values "local").getD "")

/-- Reads a command line; there need not be a command. -/
def parse (args : List String) : Except UsageError (Options × Option Command) :=
  match topLevel.read .start args with
  | .error e => .error e
  | .ok (top, none) => (topLevel.finish top).map fun values => (optionsOf values, none)
  | .ok (top, some (name, rest)) =>
    let level := levelOf name
    match level.read .start rest with
    | .error e => .error e
    | .ok (reading, _) =>
      match level.finish reading with
      | .error e => .error e
      | .ok values =>
        (topLevel.finish top).map fun before =>
          (optionsOf (values ++ before), some (commandOf name values))

end FileCluster.CommandLine
