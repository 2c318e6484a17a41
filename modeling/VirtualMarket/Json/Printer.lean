/-
VirtualMarket.Json.Printer — values to JSON texts.

`compact` writes everything on one line, `pretty` one item a line with two
spaces for every level.  Strings escape quotes, backslashes and control
characters and leave all else as it is.
-/
import VirtualMarket.Json.Value

namespace VirtualMarket.Json

/-! ## Strings -/

/-- Two digits in base sixteen. -/
def hexPair (n : Nat) : List Char :=
  [Nat.digitChar (n / 16), Nat.digitChar (n % 16)]

/-- How one character is written inside a string. -/
def escapeChar (c : Char) : List Char :=
  match c with
  | '"' => ['\\', '"']
  | '\\' => ['\\', '\\']
  | '\n' => ['\\', 'n']
  | '\r' => ['\\', 'r']
  | '\t' => ['\\', 't']
  | '\x08' => ['\\', 'b']
  | '\x0c' => ['\\', 'f']
  | c => if c.toNat < 0x20 then ['\\', 'u', '0', '0'] ++ hexPair c.toNat else [c]

def writeString (text : String) : List Char :=
  '"' :: text.toList.flatMap escapeChar ++ ['"']

/-! ## Values -/

mutual

def writeCompact : Value → List Char
  | .null => "null".toList
  | .boolean true => "true".toList
  | .boolean false => "false".toList
  | .number literal => literal.toList
  | .string text => writeString text
  | .broken => writeString ""
  | .array items => '[' :: writeItems items
  | .object members => '\x7b' :: writeMembers members

/-- Items and the closing bracket. -/
def writeItems : List Value → List Char
  | [] => [']']
  | [item] => writeCompact item ++ [']']
  | item :: rest => writeCompact item ++ ',' :: writeItems rest

/-- Members and the closing brace. -/
def writeMembers : List (String × Value) → List Char
  | [] => ['\x7d']
  | [(name, value)] => writeString name ++ ':' :: writeCompact value ++ ['\x7d']
  | (name, value) :: rest =>
    writeString name ++ ':' :: writeCompact value ++ ',' :: writeMembers rest

end

def Value.compact (v : Value) : String :=
  String.ofList (writeCompact v)

/-- A new line and its indentation. -/
def newLine (level : Nat) : List Char :=
  '\n' :: List.replicate (2 * level) ' '

mutual

/-- A value over several lines, with its opening at a given level. -/
def writePretty (level : Nat) : Value → List Char
  | .array [] => ['[', ']']
  | .object [] => ['\x7b', '\x7d']
  | .array (item :: rest) =>
    '[' :: newLine (level + 1) ++ writePretty (level + 1) item ++ prettyItems (level + 1) rest
      ++ newLine level ++ [']']
  | .object ((name, value) :: rest) =>
    '\x7b' :: newLine (level + 1) ++ writeString name ++ ':' :: ' ' :: writePretty (level + 1) value
      ++ prettyMembers (level + 1) rest ++ newLine level ++ ['\x7d']
  | .null => "null".toList
  | .boolean true => "true".toList
  | .boolean false => "false".toList
  | .number literal => literal.toList
  | .string text => writeString text
  | .broken => writeString ""

/-- The items after the first, each after a comma on a line of its own. -/
def prettyItems (level : Nat) : List Value → List Char
  | [] => []
  | item :: rest => ',' :: newLine level ++ writePretty level item ++ prettyItems level rest

/-- The members after the first, each after a comma on a line of its own. -/
def prettyMembers (level : Nat) : List (String × Value) → List Char
  | [] => []
  | (name, value) :: rest =>
    ',' :: newLine level ++ writeString name ++ ':' :: ' ' :: writePretty level value
      ++ prettyMembers level rest

end

/-- The text of a value over several lines, without a line end after it. -/
def Value.pretty (v : Value) : String :=
  String.ofList (writePretty 0 v)

end VirtualMarket.Json
