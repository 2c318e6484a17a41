/-
VirtualMarket.Toml.Item — the items of a TOML document and who may define them.

Every table remembers how it came to be.  A table may be opened by one header
only, a dotted key may add to what dotted keys have built and to nothing else,
and a table in braces is finished where it stands.  `Entries.define`,
`Entries.openTable` and `Entries.openListed` are the three ways a document
grows, each refusing a second definition.
-/
namespace VirtualMarket.Toml

/-- How a table came to be. -/
inductive Origin where
  /-- Written in braces, all at once. -/
  | braces
  /-- Opened by a header of its own. -/
  | header
  /-- Part of the name of a longer header. -/
  | implied
  /-- Part of a dotted key. -/
  | dotted
deriving Repr, DecidableEq

/-- A value or a table. -/
inductive Item where
  | boolean (value : Bool)
  | integer (value : Int)
  | real (value : Float)
  | text (value : String)
  /-- A date, a time or both, as written. -/
  | moment (text : String)
  | list (items : List Item)
  | table (origin : Origin) (entries : List (String × Item))
  /-- Tables opened one after another under one name, the newest first. -/
  | listed (tables : List (List (String × Item)))

/-- The named items of a table, in the order of their definition. -/
abbrev Entries := List (String × Item)

namespace Entries

def get? (entries : Entries) (key : String) : Option Item :=
  match entries with
  | [] => none
  | (name, item) :: rest => if name = key then some item else get? rest key

/-- Puts an item in the place of an old one, or at the end. -/
def put (entries : Entries) (key : String) (item : Item) : Entries :=
  match entries with
  | [] => [(key, item)]
  | (name, old) :: rest =>
    if name = key then (name, item) :: rest else (name, old) :: put rest key item

/-- Adds an item whose name is new. -/
def add? (entries : Entries) (key : String) (item : Item) : Option Entries :=
  match entries.get? key with
  | none => some (entries.put key item)
  | some _ => none

/-- Changes the table at the end of a path.  Tables that are missing on the way
are made with the origin `made`, and those on the way have to pass `passable`.
Of tables listed under one name the newest is meant. -/
def alterAt (made : Origin) (passable : Origin → Bool)
    (change : Origin → Entries → Option Entries) :
    List String → Origin → Entries → Option Entries
  | [], origin, entries => change origin entries
  | key :: path, _, entries =>
    match entries.get? key with
    | none =>
      (alterAt made passable change path made []).map fun inner =>
        entries.put key (.table made inner)
    | some (.table origin inner) =>
      if passable origin then
        (alterAt made passable change path origin inner).map fun inner =>
          entries.put key (.table origin inner)
      else none
    | some (.listed (newest :: earlier)) =>
      (alterAt made passable change path .header newest).map fun newest =>
        entries.put key (.listed (newest :: earlier))
    | some _ => none

/-- Changes the table that a header names: tables in braces are closed to it. -/
def alterUnder (path : List String) (change : Entries → Option Entries) (root : Entries) :
    Option Entries :=
  alterAt .implied (· != .braces) (fun _ => change) path .header root

/-- Defines a dotted key inside a table.  The tables on the way must have been
built by dotted keys; a header may only have implied them, and then not be the
last of them. -/
def define (path : List String) (key : String) (item : Item) (entries : Entries) :
    Option Entries :=
  alterAt .dotted (fun origin => origin == .implied || origin == .dotted)
    (fun origin inner =>
      if path.isEmpty || origin == .dotted then inner.add? key item else none)
    path .header entries

/-- Opens the table of a header.  There may be one already if longer headers
implied it; then its place is at the end from now on. -/
def openTable (key : String) (entries : Entries) : Option Entries :=
  match entries.get? key with
  | none => some (entries.put key (.table .header []))
  | some (.table .implied inner) =>
    some (entries.filter (fun entry => entry.1 != key) ++ [(key, .table .header inner)])
  | some _ => none

/-- Opens one more table in the list of a name. -/
def openListed (key : String) (entries : Entries) : Option Entries :=
  match entries.get? key with
  | none => some (entries.put key (.listed [[]]))
  | some (.listed tables) => some (entries.put key (.listed ([] :: tables)))
  | some _ => none

end Entries

end VirtualMarket.Toml
