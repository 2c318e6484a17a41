/-
VirtualMarket.Json.Value — JSON values.

A number keeps its literal, so whole numbers, their sign of zero and their
size stay visible.  An object keeps its members in the order of the text,
repeated names included.
-/
namespace VirtualMarket.Json

inductive Value where
  | null
  | boolean (value : Bool)
  /-- A number, by its literal. -/
  | number (literal : String)
  | string (text : String)
  /-- A string whose escapes leave half of a surrogate pair, or an object with a
  member of such a name.  It can be skipped but not read. -/
  | broken
  | array (items : List Value)
  | object (members : List (String × Value))

/-- The value of a member that occurs exactly once. -/
def member? (members : List (String × Value)) (name : String) : Option Value :=
  match members.filter (fun m => m.1 == name) with
  | [m] => some m.2
  | _ => none

/-- The values of the named members of an object, or the items of an array of
that length: the two written forms of a record.  A member that is missing or
repeated spoils the record; others are ignored. -/
def Value.record? (names : List String) : Value → Option (List Value)
  | .object members => names.mapM (member? members)
  | .array items => if items.length = names.length then some items else none
  | _ => none

def Value.string? : Value → Option String
  | .string text => some text
  | _ => none

/-- The object of members whose names are string values.  One broken name breaks
it. -/
def Value.ofMembers (members : List (Value × Value)) : Value :=
  match members.mapM fun (name, value) => name.string?.map fun name => (name, value) with
  | some members => .object members
  | none => .broken

def Value.boolean? : Value → Option Bool
  | .boolean value => some value
  | _ => none

def Value.array? : Value → Option (List Value)
  | .array items => some items
  | _ => none

end VirtualMarket.Json
