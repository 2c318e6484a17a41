/-
VirtualMarket.Settings.Load — settings from a text, or from files and variables.

A text stands alone.  Of files, a base file comes first, then the file of a named
environment beside it, then environment variables; a later source wins.  Where no
file is named and there is none in the usual place, the defaults hold and nothing
else is looked at.
-/
import VirtualMarket.Files
import VirtualMarket.Settings.Environment
import VirtualMarket.Settings.Validate

namespace VirtualMarket.Settings

/-- The settings of a text. -/
def parse (text : String) : Except SettingsFlaw Settings :=
  match Toml.parse? text with
  | none => .error .unparsable
  | some entries => Settings.ofTree (.ofSources [Tree.ofEntries entries])

/-! ## Files -/

/-- Where settings are looked for when no file is named. -/
def usualPath : Path :=
  .ofString "config/vamm.toml"

/-- The file that a path means: the file itself, if its ending tells the format,
or else the one with the ending added. -/
def locateDocument? (files : Files) (path : Path) : Option Path :=
  if files.isFile path then
    if path.ending? = some "toml" then some path else none
  else
    (path.addEnding? ".toml").filter (fun path => files.isFile path)

/-- The outermost names and values of a document. -/
def readDocument? (files : Files) (path : Path) : Option (List (String × Tree)) := do
  let text ← files.read? (← locateDocument? files path)
  (Toml.parse? text).map Tree.ofEntries

/-- The file of a named environment beside a base file. -/
def environmentPath (base : Path) (environment : String) : Path :=
  (base.parent.join (.ofString "environments")).join (.ofString (environment ++ ".toml"))

/-- The settings of a named environment, none if it has no file. -/
def readEnvironment? (files : Files) (base : Path) : Option String → Option (List (String × Tree))
  | none => some []
  | some environment =>
    let path := environmentPath base environment
    if files.isThere path then readDocument? files path else some []

/-! ## Sources -/

/-- All sources of settings, the weakest first. -/
def sources? (files : Files) (vars : Variables) (base : Path)
    (environment : Option String) : Option (List (List (String × Tree))) := do
  let document ← readDocument? files base
  let overlay ← readEnvironment? files base environment
  some [document, overlay, Environment.source vars]

/-- The files that may be looked at for settings. -/
def candidates (path environment : Option String) : List Path :=
  let base := (path.map Path.ofString).getD usualPath
  let paths := base :: (environment.map (environmentPath base)).toList
  paths.flatMap fun path => path :: (path.addEnding? ".toml").toList

/-- The settings that start with a base file. -/
def loadFrom (files : Files) (vars : Variables) (base : Path)
    (environment : Option String) : Except SettingsFlaw Settings :=
  match sources? files vars base environment with
  | none => .error .unbuildable
  | some sources => Settings.ofTree (.ofSources sources)

/-- The settings that start with a named base file, or with the usual one, or
the defaults. -/
def load (files : Files) (vars : Variables) (path environment : Option String) :
    Except SettingsFlaw Settings :=
  match path with
  | some path => loadFrom files vars (.ofString path) environment
  | none =>
    if files.isThere usualPath then loadFrom files vars usualPath environment
    else do
      let defaults : Settings := {}
      defaults.validate
      .ok defaults

end VirtualMarket.Settings
