/-
VirtualMarket.Settings.Address — names that reach into the tree.

The outermost names of a source may be addresses: `curve.a` is the entry `a` of
the table `curve`, and `a[0]` the first place of the list `a`.  A name that is no
well-formed address stands for itself.
-/
import VirtualMarket.Settings.Tree

namespace VirtualMarket.Settings

/-- One step into a tree. -/
inductive Step where
  | entry (name : String)
  /-- A place of a list, from zero; a negative one counts from the end. -/
  | place (index : Int)
deriving Repr, DecidableEq

namespace Address

/-! ## Reading -/

def isNameChar (c : Char) : Bool :=
  Toml.isBare c || c == ' '

def readName (text : List Char) : Option (String × List Char) :=
  let name := text.takeWhile isNameChar
  if name.isEmpty then none else some (String.ofList name, text.dropWhile isNameChar)

/-- The index of a place, up to its closing bracket. -/
def readIndex (text : List Char) : Option (Int × List Char) :=
  let body := text.takeWhile (· != ']')
  let digits := ((Toml.skipBlank body).reverse.dropWhile Toml.isBlank).reverse
  match digits.head?, Decimal.signed64.read digits, text.dropWhile (· != ']') with
  | some '+', _, _ => none
  | _, .ok index, _ :: rest => some (index, rest)
  | _, _, _ => none

/-- The steps after the first name. -/
def readSteps : Nat → List Char → Option (List Step)
  | _, [] => some []
  | 0, _ => none
  | fuel + 1, '.' :: text => do
    let (name, rest) ← readName text
    (readSteps fuel rest).map (.entry name :: ·)
  | fuel + 1, '[' :: text => do
    let (index, rest) ← readIndex text
    (readSteps fuel rest).map (.place index :: ·)
  | _, _ => none

/-- The steps of a name; one step if it is no address. -/
def read (name : String) : List Step :=
  let steps? : Option (List Step) := do
    let (first, rest) ← readName name.toList
    (readSteps rest.length rest).map (Step.entry first :: ·)
  steps?.getD [.entry name]

end Address

/-! ## Writing to an address -/

/-- The position of an index in a list of `size` items. -/
def positionOf (index : Int) (size : Nat) : Option Nat :=
  if 0 ≤ index then some index.toNat
  else if index.natAbs ≤ size then some (size - index.natAbs)
  else none

/-- Changes the item at a position, after filling the list up to it. -/
def changeItem (items : List Tree) (position : Nat) (change : Tree → Tree) : List Tree :=
  let filled := items ++ List.replicate (position + 1 - items.length) .unset
  filled.modify position change

namespace Tree

/-- Sets the value at the end of some steps.  What is in the way and has the
wrong kind gives way to an empty table or list.  An index before the start of a
list has no effect. -/
def setAt (value : Tree) : List Step → Tree → Tree
  | [], _ => value
  | [.entry name], t => t.set name value
  | .entry name :: rest, t =>
    let name := lowerName name
    t.putChild name (setAt value rest ((t.child? name).getD .unset))
  | .place index :: rest, t =>
    match positionOf index t.items.length with
    | some position => .list (changeItem t.items position (setAt value rest))
    | none => t

/-- Sets all outermost names of a source.  The order of the names, here and inside of
tables, counts only where two of them are one address; a source with such names
promises no order. -/
def addSource (t : Tree) (source : List (String × Tree)) : Tree :=
  source.foldl (fun t (name, value) => setAt value (Address.read name) t) t

/-- The tree of several sources, the weakest first. -/
def ofSources (sources : List (List (String × Tree))) : Tree :=
  sources.foldl addSource (.table [])

end Tree

end VirtualMarket.Settings
