/-
VirtualMarket.Toml.Quote — the four kinds of quoted text in TOML.

Each function starts after the opening quotes and gives the text and what
follows its closing quotes.  A text in double quotes has escapes; one in single
quotes has none.  Three quotes hold several lines: a line end right after them
is dropped, each other one reads as a line feed, and up to two quotes before
the closing three belong to the text.
-/
import VirtualMarket.Text.Hex

namespace VirtualMarket.Toml

/-! ## Characters -/

def isBlank (c : Char) : Bool :=
  c == ' ' || c == '\t'

/-- Characters that may stand in comments and texts: no controls but the tab. -/
def isPrintable (c : Char) : Bool :=
  c == '\t' || (0x20 ≤ c.toNat && c.toNat != 0x7F)

def skipBlank (text : List Char) : List Char :=
  text.dropWhile isBlank

/-- Drops one line end at the front, if there is one. -/
def skipLineEnd : List Char → List Char
  | '\n' :: rest => rest
  | '\r' :: '\n' :: rest => rest
  | text => text

def atLineEnd : List Char → Bool
  | '\n' :: _ => true
  | '\r' :: '\n' :: _ => true
  | _ => false

/-! ## Escapes -/

/-- A text that has been read, and what follows it. -/
abbrev Quotation := Option (List Char × List Char)

/-- Puts a character in front of the text. -/
def Quotation.push (c : Option Char) (q : Quotation) : Quotation :=
  match c, q with
  | some c, some (text, rest) => some (c :: text, rest)
  | _, _ => none

/-- The character of an escape by one letter. -/
def escapedLetter? : Char → Option Char
  | '"' => some '"'
  | '\\' => some '\\'
  | 'b' => some '\x08'
  | 't' => some '\t'
  | 'n' => some '\n'
  | 'f' => some '\x0c'
  | 'r' => some '\r'
  | _ => none

/-- The character with a code point; surrogates and what lies beyond the last
code point are no characters. -/
def codePoint? (code : Nat) : Option Char :=
  if code < 0xD800 || (0xDFFF < code && code < 0x110000) then some (Char.ofNat code) else none

/-- The character of an escape by four digits. -/
def escapedShort? (a b c d : Char) : Option Char := do
  codePoint? (← Text.codeUnit? a b c d)

/-- The character of an escape by eight digits. -/
def escapedLong? (a b c d e f g h : Char) : Option Char := do
  let high ← Text.codeUnit? a b c d
  let low ← Text.codeUnit? e f g h
  codePoint? (high * 0x10000 + low)

/-! ## One line -/

/-- A text up to its closing double quote. -/
def basic : List Char → Quotation
  | '"' :: rest => some ([], rest)
  | '\\' :: 'u' :: a :: b :: c :: d :: rest => (basic rest).push (escapedShort? a b c d)
  | '\\' :: 'U' :: a :: b :: c :: d :: e :: f :: g :: h :: rest =>
    (basic rest).push (escapedLong? a b c d e f g h)
  | '\\' :: c :: rest => (basic rest).push (escapedLetter? c)
  | c :: rest => if isPrintable c && c != '\\' then (basic rest).push (some c) else none
  | [] => none

/-- A text up to its closing single quote. -/
def literal : List Char → Quotation
  | '\'' :: rest => some ([], rest)
  | c :: rest => if isPrintable c then (literal rest).push (some c) else none
  | [] => none

/-! ## Several lines -/

/-- The quotes after three closing ones: two at most belong to the text. -/
def extraQuotes (quote : Char) : List Char → List Char × List Char
  | a :: b :: rest =>
    if a = quote then
      if b = quote then ([quote, quote], rest) else ([quote], b :: rest)
    else ([], a :: b :: rest)
  | [a] => if a = quote then ([quote], []) else ([], [a])
  | [] => ([], [])

/-- A text up to three closing double quotes.  A backslash at the end of a line
drops all blanks and line ends up to the next other character; `skipping` says
that this is going on. -/
def basicLines (skipping : Bool) : List Char → Quotation
  | '"' :: '"' :: '"' :: rest => some (extraQuotes '"' rest)
  | '\r' :: '\n' :: rest =>
    if skipping then basicLines true rest else (basicLines false rest).push (some '\n')
  | '\n' :: rest =>
    if skipping then basicLines true rest else (basicLines false rest).push (some '\n')
  | '\\' :: 'u' :: a :: b :: c :: d :: rest =>
    (basicLines false rest).push (escapedShort? a b c d)
  | '\\' :: 'U' :: a :: b :: c :: d :: e :: f :: g :: h :: rest =>
    (basicLines false rest).push (escapedLong? a b c d e f g h)
  | '\\' :: c :: rest =>
    if atLineEnd (skipBlank (c :: rest)) then basicLines true rest
    else (basicLines false rest).push (escapedLetter? c)
  | c :: rest =>
    if skipping && isBlank c then basicLines true rest
    else if isPrintable c && c != '\\' then (basicLines false rest).push (some c)
    else none
  | [] => none

/-- A text up to three closing single quotes. -/
def literalLines : List Char → Quotation
  | '\'' :: '\'' :: '\'' :: rest => some (extraQuotes '\'' rest)
  | '\r' :: '\n' :: rest => (literalLines rest).push (some '\n')
  | '\n' :: rest => (literalLines rest).push (some '\n')
  | c :: rest => if isPrintable c then (literalLines rest).push (some c) else none
  | [] => none

end VirtualMarket.Toml
