import FileCluster.CommandLine.Run

/-!
The program.

It runs its arguments as one command. A server that comes up keeps the program alive: it then takes
further command lines from the standard input, one a line, and runs them on the same machine, so
that the server answers the clients of later lines. The machine begins without files.
-/

namespace FileCluster.CommandLine

/-- The variables that settings are read from. -/
def settingVariables : List String := [NamingSettings.serviceVariable,
  NamingSettings.registrationVariable, StorageSettings.storageVariable,
  StorageSettings.commandVariable]

/-- The settings in the environment of the process. -/
def readEnvironment : IO Environment := do
  let values ← settingVariables.filterMapM fun name => do
    return (← IO.getEnv name).map fun value => (name, Text.encode value)
  return ⟨values⟩

/-- Writes out what came of a command and gives its exit code. -/
def writeEnding : Ending → IO UInt32
  | .serving => return 0
  | .finished code output complaint => do
    (← IO.getStdout).write output
    (← IO.getStdout).flush
    unless complaint.isEmpty do (← IO.getStderr).putStrLn complaint
    return UInt32.ofNat code

/-- The words of a command line. -/
def words (line : String) : List String :=
  ((Text.trim line).splitOn " ").filter fun word => !word.isEmpty

/-- Runs the command lines of an input from the `n`-th on. -/
partial def session (env : Environment) (input : IO.FS.Stream) (n : Nat) (c : Cluster) :
    IO Unit := do
  let line ← input.getLine
  unless line.isEmpty do
    let (ending, c) := (run (toString n) env (words line)).run c
    let _ ← writeEnding ending
    session env input (n + 1) c

end FileCluster.CommandLine

open FileCluster CommandLine in
/-- Runs the arguments, and further command lines while a server is up. -/
def main (args : List String) : IO UInt32 := do
  let env ← readEnvironment
  let (ending, c) := (run "0" env args).run (.ofDisk .empty)
  if ending matches .serving then session env (← IO.getStdin) 1 c
  writeEnding ending
