import FileCluster.Client
import FileCluster.Cluster.Basic
import FileCluster.CommandLine.Arguments

/-!
Running a command line on a machine.

A command either comes to an end, with output and perhaps a complaint, or goes on as a server. A
complaint shows the failure and, below it, what caused it.
-/

namespace FileCluster.CommandLine

/-- What came of a command. -/
inductive Ending where
  /-- it ended: the exit code, the output and the complaint -/
  | finished (code : Nat) (output : ByteArray) (complaint : String)
  /-- it goes on as a server -/
  | serving

/-- Text with every line after the first one moved in. -/
def indented (margin : String) (s : String) : String :=
  String.ofList (s.toList.flatMap fun c => if c = '\n' then '\n' :: margin.toList else [c])

/-- Causes with their numbers, from one on. -/
def numbered (n : Nat) : List String → String
  | [] => ""
  | s :: rest => "\n    " ++ toString n ++ ": " ++ indented "       " s ++ numbered (n + 1) rest

/-- The complaint about a failure, given its wording and those of its causes. -/
def complaint : List String → String
  | [] => ""
  | [top] => "Error: " ++ top
  | [top, cause] => "Error: " ++ top ++ "\n\nCaused by:\n    " ++ indented "    " cause
  | top :: causes => "Error: " ++ top ++ "\n\nCaused by:" ++ numbered 0 causes

/-- A command that failed, after some output. -/
def failed (output : ByteArray) (causes : List String) : Ending :=
  .finished 1 output (complaint causes)

/-- A command that did what it was asked. -/
def succeeded (output : String) : Ending := .finished 0 output.toUTF8 ""

/-- The line that says whether an order changed anything. -/
def report (p : Path) (changed : Bool) (verb : String) : String :=
  p.text ++ ": " ++ (if changed then verb else "unchanged") ++ "\n"

/-- The naming service that the options point to. -/
def service (o : Options) : Client.Service (StateM Cluster) := fun r =>
  Stub.request Cluster.exchange (⟨o.namingHost, o.servicePort⟩ : ServiceStub) r

/-- The storage servers of the machine. -/
def storages : Client.Storages (StateM Cluster) := fun stub r => stub.request Cluster.exchange r

/-- The ending of a command that writes something out. -/
def written (output : Client.Output) : Ending :=
  match output.failure with
  | none => .finished 0 output.data ""
  | some e => failed output.data e.causes

/-- The ending of an order. -/
def ordered (p : Path) (verb : String) : Except NamingError Bool → Ending
  | .ok changed => succeeded (report p changed verb)
  | .error e => failed .empty e.causes

/-- Runs a naming server under a name until something stops it. -/
def runNaming (name : String) (context : List String) (env : Environment) :
    StateM Cluster Ending := fun c =>
  match NamingSettings.ofEnvironment env with
  | .error e => (failed .empty [e.message], c)
  | .ok settings =>
    match (c.setServer name (.naming (.new settings))).startNaming name with
    | (.ok (), c) => (.serving, c)
    | (.error e, after) =>
      (failed .empty (context ++ e.causes), after.exitInFavourOf name (c.server? name))

/-- Runs a storage server under a name until something stops it. -/
def runStorage (name : String) (o : Options) (root hostname : String) (env : Environment) :
    StateM Cluster Ending := fun c =>
  match StorageSettings.ofOptions root hostname o.namingHost o.registrationPort env with
  | .error e => (failed .empty [e.message], c)
  | .ok settings =>
    let started := (c.setServer name (.storage (.new settings))).startStorage name
      settings.hostname settings.registration
    match started with
    | (.ok (), c) => (.serving, c)
    | (.error e, after) => (failed .empty ("starting storage server" :: e.causes),
        after.exitInFavourOf name (c.server? name))

/-- Puts a local file into the cluster. -/
def runPut (o : Options) (p : Path) (file : String) : StateM Cluster Ending := do
  match (← get).disk.readFile file with
  | .error cause => return failed .empty ["reading " ++ file, cause.message]
  | .ok data =>
    match ← Client.put (service o) storages p data with
    | .error e => return failed .empty e.causes
    | .ok () =>
      return succeeded (p.text ++ ": wrote " ++ toString data.size ++ " bytes\n")

/-- Runs a command; a server goes by the given name. -/
def runCommand (name : String) (env : Environment) (o : Options) :
    Command → StateM Cluster Ending
  | .naming => runNaming name ["starting naming server"] env
  | .storage root hostname => runStorage name o root hostname env
  | .list p => do return written (← Client.list (service o) p)
  | .stat p => do return written (← Client.stat (service o) p)
  | .makeDirectory p => do return ordered p "created" (← service o (.createDirectory p))
  | .touch p => do return ordered p "created" (← service o (.createFile p))
  | .remove p => do return ordered p "deleted" (← service o (.delete p))
  | .locate p => do return written (← Client.locate (service o) p)
  | .cat p => do return written (← Client.cat (service o) storages p)
  | .put p file => runPut o p file

/-- Runs a command line; a server goes by the given name. -/
def run (name : String) (env : Environment) (args : List String) : StateM Cluster Ending :=
  match parse args with
  | .error e => pure (.finished 2 .empty e.message)
  | .ok (_, none) => pure (succeeded "Use 'dfs --help' for commands\n")
  | .ok (o, some command) => runCommand name env o command

end FileCluster.CommandLine
