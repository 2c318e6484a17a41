/-
VirtualMarket.Main — the command.

All that a command may look at is gathered first: the files it can name, and the
variables that set something.  The command then runs on what was found, and what
it printed or wrote is carried out.
-/
import VirtualMarket.Session.Command

namespace VirtualMarket.Session

/-- The text of a file, if it can be read. -/
def readIfThere (path : String) : IO (Option String) :=
  try
    return some (← IO.FS.readFile path)
  catch _ =>
    return none

/-- The files that are found at some paths. -/
def gatherFiles (paths : List Path) : IO Files :=
  paths.foldlM (fun files path => do
    match ← readIfThere path.text with
    | some text => return files.discover path (some text)
    | none => return files) {}

def gatherVariables : IO (List (String × String)) :=
  Settings.Environment.variableNames.filterMapM fun name => do
    return (← IO.getEnv name).map (name, ·)

/-- Writes the report that a command left for a file; `false` if it cannot be
written. -/
def writeOutput (ended : Ended) (file : String) : IO Bool := do
  match ended.files.read? (.ofString file) with
  | none => return false
  | some text =>
    try
      IO.FS.writeFile file text
      return true
    catch _ =>
      return false

/-- Tells a failure and gives its exit code. -/
def tell (failure : Failure) : IO UInt32 := do
  IO.eprintln ("Error: " ++ failure.message)
  return 1

/-- Runs the command that some words spell. -/
def start (words : List String) : IO UInt32 := do
  match Arguments.ofWords? words with
  | none =>
    IO.eprintln "usage: --candles FILE [--config FILE] [--env NAME] [--snapshot FILE]"
    return 2
  | some a =>
    let inputs := (a.candles :: a.snapshot.toList).map Path.ofString
    let files ← gatherFiles (inputs ++ Settings.candidates a.config a.environment)
    let files := match a.output with
      | some file => files.discover (.ofString file) none
      | none => files
    let ended := command files (← gatherVariables) words
    match ended.failure, a.output with
    | some failure, _ => tell failure
    | none, none =>
      IO.print ended.printed
      return 0
    | none, some file =>
      if ← writeOutput ended file then return 0 else tell (.report file)

end VirtualMarket.Session

/-- The command of this library. -/
def main (words : List String) : IO UInt32 :=
  VirtualMarket.Session.start words
