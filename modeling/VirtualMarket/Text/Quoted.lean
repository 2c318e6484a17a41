/-
VirtualMarket.Text.Quoted — names between double quotes.

Messages show file names in double quotes.  A quote or a backslash inside is
escaped.  So is every character that could not be seen on its own: by letter, or
by its code point.
-/
import VirtualMarket.Text.Extender
import VirtualMarket.Text.Graphic

namespace VirtualMarket.Text

/-- The digits of a code point in base sixteen. -/
def hexDigits (n : Nat) : List Char :=
  Nat.toDigits 16 n

/-- How one character is written inside quotes. -/
def quotedChar (c : Char) : List Char :=
  match c with
  | '"' => ['\\', '"']
  | '\\' => ['\\', '\\']
  | '\n' => ['\\', 'n']
  | '\r' => ['\\', 'r']
  | '\t' => ['\\', 't']
  | '\x00' => ['\\', '0']
  | c =>
    if isGraphic c && !isExtender c then [c]
    else '\\' :: 'u' :: '\x7b' :: hexDigits c.toNat ++ ['\x7d']

def quoted (name : String) : String :=
  String.ofList ('"' :: name.toList.flatMap quotedChar ++ ['"'])

end VirtualMarket.Text
