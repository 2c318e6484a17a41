/-
VirtualMarket.Settings.Tree — settings before they are given types.

Every source of settings fills one tree.  Names are kept in lower case.  A value
that is set replaces what was there before, but a table is merged into it, entry
by entry, so a later source can change one entry and leave the others.
-/
import VirtualMarket.Toml.Parser

namespace VirtualMarket.Settings

/-- Settings from any source. -/
inductive Tree where
  /-- A place of a list that no source has filled. -/
  | unset
  | boolean (value : Bool)
  | integer (value : Int)
  | real (value : Float)
  | text (value : String)
  | list (items : List Tree)
  | table (entries : List (String × Tree))

/-! ## Names -/

/-- The lower case of a character.  Besides the capital letters of ASCII only
the Kelvin sign has a small letter of ASCII; all others stay as they are, since
no setting has one in its name. -/
def lowerChar (c : Char) : Char :=
  if c = '\u212a' then 'k' else c.toLower

def lowerName (name : String) : String :=
  String.ofList (name.toList.map lowerChar)

/-! ## Entries -/

/-- The tree of a name. -/
def entry? (name : String) : List (String × Tree) → Option Tree
  | [] => none
  | (other, tree) :: rest => if other = name then some tree else entry? name rest

/-- Puts a tree under a name, in the place of an old one or at the end. -/
def putEntry (name : String) (tree : Tree) : List (String × Tree) → List (String × Tree)
  | [] => [(name, tree)]
  | (other, old) :: rest =>
    if other = name then (other, tree) :: rest else (other, old) :: putEntry name tree rest

namespace Tree

/-- The entries of a table; anything else has none. -/
def entries : Tree → List (String × Tree)
  | .table entries => entries
  | _ => []

/-- The items of a list; anything else has none. -/
def items : Tree → List Tree
  | .list items => items
  | _ => []

def child? (t : Tree) (name : String) : Option Tree :=
  entry? name t.entries

/-- Puts a tree under a name.  What is no table becomes one. -/
def putChild (t : Tree) (name : String) (child : Tree) : Tree :=
  .table (putEntry name child t.entries)

/-! ## Merging -/

mutual

/-- Sets a name: a table is merged into what is there, any other value replaces
it. -/
def set (t : Tree) (name : String) : Tree → Tree
  | .table entries =>
    let name := lowerName name
    t.putChild name (setAll ((t.child? name).getD (.table [])) entries)
  | value => t.putChild (lowerName name) value

def setAll (t : Tree) : List (String × Tree) → Tree
  | [] => t
  | (name, value) :: rest => setAll (t.set name value) rest

end

/-! ## Documents -/

mutual

/-- The tree of an item of a document.  A date is kept as its text. -/
def ofItem : Toml.Item → Tree
  | .boolean value => .boolean value
  | .integer value => .integer value
  | .real value => .real value
  | .text value => .text value
  | .moment written => .text written
  | .list items => .list (ofItems items)
  | .table _ entries => .table (ofEntries entries)
  | .listed tables => .list (ofTables tables).reverse

def ofItems : List Toml.Item → List Tree
  | [] => []
  | item :: rest => ofItem item :: ofItems rest

def ofEntries : List (String × Toml.Item) → List (String × Tree)
  | [] => []
  | (name, item) :: rest => (name, ofItem item) :: ofEntries rest

def ofTables : List (List (String × Toml.Item)) → List Tree
  | [] => []
  | entries :: rest => .table (ofEntries entries) :: ofTables rest

end

end Tree

end VirtualMarket.Settings
