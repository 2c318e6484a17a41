/-
VirtualMarket.Files — a tree of text files.

Paths are walked from the working folder, one part after another.  A part can be
walked through only if it is a folder, also where the next part leads back, so
`a.json/..` leads nowhere when `a.json` is a file.  A path or a name that is too
long leads nowhere either, and no file can be made there.
-/
namespace VirtualMarket

/-! ## Paths -/

/-- Splits a text at every slash. -/
def splitSlashes : List Char → List (List Char)
  | [] => [[]]
  | c :: rest =>
    match splitSlashes rest with
    | [] => [[c]]
    | part :: parts => if c = '/' then [] :: part :: parts else (c :: part) :: parts

/-- A path: its parts between slashes, and whether it starts at the root. -/
structure Path where
  absolute : Bool
  parts : List String
deriving Repr, DecidableEq

namespace Path

def ofString (text : String) : Path :=
  ⟨text.toList.head? == some '/', (splitSlashes text.toList).map String.ofList⟩

def text (p : Path) : String :=
  (if p.absolute && p.parts.head? != some "" then "/" else "") ++ "/".intercalate p.parts

/-- Whether a path has a length that can be used: at most 255 bytes for a name
and 4095 for the whole. -/
def fits (p : Path) : Bool :=
  p.text.utf8ByteSize ≤ 4095 && p.parts.all fun part => part.utf8ByteSize ≤ 255

/-- The parts that lead anywhere: neither empty nor a single dot. -/
def names (p : Path) : List String :=
  p.parts.filter fun part => part != "" && part != "."

/-- The folder that holds what a path leads to, going by its names. -/
def parent (p : Path) : Path :=
  { p with parts := p.names.dropLast }

/-- Adds an ending to the last name.  A path that ends by leading back has no
last name. -/
def addEnding? (p : Path) (ending : String) : Option Path :=
  match p.names.getLast? with
  | none => none
  | some name =>
    if name = ".." then none
    else some { p with parts := p.names.dropLast ++ [name ++ ending] }

/-- Walks on from a path; an absolute path starts anew. -/
def join (p q : Path) : Path :=
  if q.absolute then q else { p with parts := p.parts ++ q.parts }

/-- The ending of a name: what follows its last point, if the point is not the
first character. -/
def endingOf? (name : String) : Option String :=
  let ending := name.toList.reverse.takeWhile (· != '.')
  match name.toList.reverse.drop ending.length with
  | '.' :: _ :: _ => some (String.ofList ending.reverse)
  | _ => none

/-- The ending of the last name. -/
def ending? (p : Path) : Option String :=
  p.names.getLast?.bind endingOf?

end Path

/-! ## Locations -/

/-- The names that lead to a file or folder from the working folder.  Above the
working folder they start with `..`, and from the root with `/`. -/
abbrev Location := List String

def Location.up (l : Location) : Location :=
  match l.getLast? with
  | none => [".."]
  | some ".." => l ++ [".."]
  | some "/" => l
  | some _ => l.dropLast

/-- The location one part further on. -/
def Location.enter (l : Location) (part : String) : Location :=
  if part = "" ∨ part = "." then l else if part = ".." then l.up else l ++ [part]

/-- All locations that some parts lead through, from the first to the last. -/
def Location.trail (here : Location) : List String → List Location
  | [] => [here]
  | part :: rest => here :: (here.enter part).trail rest

def Path.trail (p : Path) : List Location :=
  Location.trail (if p.absolute then ["/"] else []) p.parts

/-- Text files by location. -/
structure Files where
  contents : List (Location × String) := []
  /-- Folders that exist whether or not a file lies in them. -/
  folders : List Location := []

namespace Files

/-- Whether a location is a folder: the working folder and those above it, and
every folder that a file lies in. -/
def isFolder (f : Files) (l : Location) : Bool :=
  l.all (fun name => name == ".." || name == "/")
    || f.folders.contains l
    || f.contents.any fun (file, _) => l.length < file.length && file.take l.length == l

def text? (f : Files) (l : Location) : Option String :=
  (f.contents.find? fun (file, _) => file == l).map (·.2)

/-- Where a path of usable length leads, whether or not anything is there.  All
locations on the way must be folders. -/
def locate? (f : Files) (p : Path) : Option Location :=
  if p.fits && p.trail.dropLast.all f.isFolder then p.trail.getLast? else none

/-- The text of the file that a path leads to. -/
def read? (f : Files) (p : Path) : Option String :=
  (f.locate? p).bind f.text?

def isFile (f : Files) (p : Path) : Bool :=
  (f.read? p).isSome

def isThere (f : Files) (p : Path) : Bool :=
  (f.locate? p).any fun l => (f.text? l).isSome || f.isFolder l

/-- Writes a file, new or old, into a folder that is there.  Its path must have a
usable length. -/
def write? (f : Files) (p : Path) (text : String) : Option Files := do
  let name ← p.parts.getLast?
  let folder ← f.locate? { p with parts := p.parts.dropLast }
  if !p.fits ∨ name = "" ∨ name = "." ∨ name = ".." ∨ !f.isFolder folder then none
  else
    let file := folder ++ [name]
    if f.isFolder file then none
    else some { f with
      contents := (file, text) :: f.contents.filter fun (other, _) => other != file }

/-- Adds what has been found at the end of a path, and the folders on the way. -/
def discover (f : Files) (p : Path) (text : Option String) : Files where
  contents := ((p.trail.getLast?.bind fun l => text.map (l, ·)).toList) ++ f.contents
  folders := p.trail.dropLast ++ f.folders

/-- The files with given relative paths. -/
def ofList (files : List (String × String)) : Files :=
  { contents := files.map fun (path, text) => ((Path.ofString path).names, text) }

end Files

end VirtualMarket
