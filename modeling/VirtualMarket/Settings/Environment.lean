/-
VirtualMarket.Settings.Environment — settings in environment variables.

A variable sets something if its name starts with `VAMM_`, in any case.  The rest
of the name is an address in which two underscores stand for a point.  Its text
is a truth value, an integer, a real or else just a text, whichever it spells
first.
-/
import VirtualMarket.Settings.Address
import VirtualMarket.Settings.Basic

namespace VirtualMarket.Settings

/-- The names and texts of environment variables. -/
abbrev Variables := List (String × String)

namespace Environment

/-- How the names of settings start, in lower case. -/
def mark : List Char := "vamm_".toList

/-- What follows the mark. -/
def afterMark? : List Char → List Char → Option (List Char)
  | [], text => some text
  | m :: mark, c :: text => if m = c then afterMark? mark text else none
  | _, [] => none

/-- Turns two underscores into a point, from the left. -/
def dotted : List Char → List Char
  | '_' :: '_' :: rest => '.' :: dotted rest
  | c :: rest => c :: dotted rest
  | [] => []

/-- The address that a variable sets. -/
def address? (name : String) : Option String :=
  (afterMark? mark (lowerName name).toList).map fun rest => String.ofList (dotted rest)

/-- The value that a text spells. -/
def valueOf (text : String) : Tree :=
  if lowerName text == "true" then .boolean true
  else if lowerName text == "false" then .boolean false
  else match Decimal.signed64.read text.toList with
    | .ok n => .integer n
    | .error _ =>
      match Decimal.readDouble? text.toList with
      | some x => .real x
      | none => .text text

/-- The variable that sets a field of a section, in capital letters. -/
def variableName (sectionName field : String) : String :=
  "VAMM_" ++ sectionName.toUpper ++ "__" ++ field.toUpper

/-- The variables that set something, in capital letters. -/
def variableNames : List String :=
  fieldNames.flatMap fun (sectionName, fields) => fields.map (variableName sectionName)

/-- The settings in some variables. -/
def source (vars : Variables) : List (String × Tree) :=
  vars.filterMap fun (name, text) => (address? name).map fun address => (address, valueOf text)

end Environment

end VirtualMarket.Settings
