/-
VirtualMarket.Session.Command — a command from its words to its end.

A command line that is misused ends with code 2 and does nothing.  A session
that fails ends with code 1.  Otherwise the report goes to the file that was
asked for, or is printed.
-/
import VirtualMarket.Session.Arguments
import VirtualMarket.Session.Basic

namespace VirtualMarket.Session

structure Ended where
  exitCode : Nat
  printed : String
  failure : Option Failure
  files : Files

/-- The settings that arguments ask for. -/
def Arguments.settings (a : Arguments) (files : Files) (vars : Settings.Variables) :
    Except Failure Settings := do
  let s ← (Settings.load files vars a.config a.environment).mapError .settings
  .ok (if a.closeOnly then { s with plan := { s.plan with closeOnly := true } } else s)

/-- Where a report goes: the printed text, and the files afterwards. -/
def deliver (files : Files) (report : Report) : Option String → Except Failure (String × Files)
  | none => .ok (report.text ++ "\n", files)
  | some file =>
    match files.write? (.ofString file) report.text with
    | some files => .ok ("", files)
    | none => .error (.report file)

/-- Runs a session from its arguments: what it prints, and the files it
leaves. -/
def Arguments.run (a : Arguments) (files : Files) (vars : Settings.Variables) :
    Except Failure (String × Files) := do
  let s ← a.settings files vars
  let report ← Session.run files s a.snapshot a.candles a.maxCandles
  deliver files report a.output

def command (files : Files) (vars : Settings.Variables) (words : List String) : Ended :=
  match Arguments.ofWords? words with
  | none => ⟨2, "", none, files⟩
  | some arguments =>
    match arguments.run files vars with
    | .error failure => ⟨1, "", some failure, files⟩
    | .ok (printed, files) => ⟨0, printed, none, files⟩

end VirtualMarket.Session
