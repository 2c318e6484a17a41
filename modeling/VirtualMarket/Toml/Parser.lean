/-
VirtualMarket.Toml.Parser — TOML texts to documents.

A text is read line by line into statements: definitions and the headers of
tables.  `Document.ofStatements?` then builds the document, which refuses a
second definition of a name, and `Entries.settle?` finds the dates that are
spelled as tables.  Values nest at most 79 deep, and so do the parts
of a dotted key.
-/
import VirtualMarket.Toml.Quote
import VirtualMarket.Toml.Scalar

namespace VirtualMarket.Toml

/-! ## Keys -/

/-- The characters of a key without quotes. -/
def isBare (c : Char) : Bool :=
  ('a' ≤ c && c ≤ 'z') || ('A' ≤ c && c ≤ 'Z') || Decimal.isDigit c || c == '_' || c == '-'

def readKeyPart : List Char → Option (String × List Char)
  | '"' :: rest => (basic rest).map fun (part, rest) => (String.ofList part, rest)
  | '\'' :: rest => (literal rest).map fun (part, rest) => (String.ofList part, rest)
  | text =>
    let part := text.takeWhile isBare
    if part.isEmpty then none else some (String.ofList part, text.dropWhile isBare)

/-- A key of at most `parts` parts, with the blanks around them. -/
def readKeyWithin (parts : Nat) (text : List Char) : Option (List String × List Char) :=
  match parts with
  | 0 => none
  | more + 1 => do
    let (part, rest) ← readKeyPart (skipBlank text)
    match skipBlank rest with
    | '.' :: rest => (readKeyWithin more rest).map fun (later, rest) => (part :: later, rest)
    | rest => some ([part], rest)

/-- How deep values and keys may nest. -/
def deepest : Nat := 79

def readKey (text : List Char) : Option (List String × List Char) :=
  readKeyWithin deepest text

/-- Defines a key, given by its parts, inside a table. -/
def defineKey (parts : List String) (item : Item) (entries : Entries) : Option Entries := do
  entries.define parts.dropLast (← parts.getLast?) item

/-! ## Blanks and comments -/

def skipComment : List Char → List Char
  | '#' :: rest => rest.dropWhile isPrintable
  | text => text

/-- What follows the end of a line, which may have blanks and a comment before
it.  The text may end here, too. -/
def endLine? (text : List Char) : Option (List Char) :=
  let text := skipComment (skipBlank text)
  if text.isEmpty then some []
  else if atLineEnd text then some (skipLineEnd text)
  else none

/-- Drops blanks, line ends and whole comments. -/
def skipLines : Nat → List Char → List Char
  | 0, text => text
  | fuel + 1, text =>
    let text := skipBlank text
    let rest := skipComment text
    if atLineEnd rest then skipLines fuel (skipLineEnd rest) else text

/-- Drops blanks, line ends and whole comments, all of them. -/
def skipAll (text : List Char) : List Char :=
  skipLines text.length text

/-! ## Values -/

/-- A text in any of the four quotes. -/
def readText : List Char → Quotation
  | '"' :: '"' :: '"' :: rest => basicLines false (skipLineEnd rest)
  | '"' :: rest => basic rest
  | '\'' :: '\'' :: '\'' :: rest => literalLines (skipLineEnd rest)
  | '\'' :: rest => literal rest
  | _ => none

mutual

def readValue : Nat → Nat → List Char → Option (Item × List Char)
  | 0, _, _ => none
  | fuel + 1, depth, text =>
    match text with
    | '[' :: rest =>
      if depth = 0 then none
      else (readItems fuel (depth - 1) (skipAll rest)).map fun (items, rest) =>
        (.list items, rest)
    | '\x7b' :: rest =>
      if depth = 0 then none
      else match skipBlank rest with
        | '\x7d' :: rest => some (.table .braces [], rest)
        | rest => (readMembers fuel (depth - 1) [] rest).map fun (entries, rest) =>
          (.table .braces entries, rest)
    | '"' :: _ => (readText text).map fun (t, rest) => (.text (String.ofList t), rest)
    | '\'' :: _ => (readText text).map fun (t, rest) => (.text (String.ofList t), rest)
    | text => scalar? text

/-- The items of a list up to its closing bracket, before which a comma may
stand. -/
def readItems : Nat → Nat → List Char → Option (List Item × List Char)
  | 0, _, _ => none
  | fuel + 1, depth, text =>
    match text with
    | ']' :: rest => some ([], rest)
    | text => do
      let (item, rest) ← readValue fuel depth text
      match skipAll rest with
      | ',' :: rest =>
        (readItems fuel depth (skipAll rest)).map fun (items, rest) => (item :: items, rest)
      | ']' :: rest => some ([item], rest)
      | _ => none

/-- The members of a table in braces up to its closing brace, added to those
before.  They stand on one line, without a comma at the end. -/
def readMembers : Nat → Nat → Entries → List Char → Option (Entries × List Char)
  | 0, _, _, _ => none
  | fuel + 1, depth, entries, text => do
    let (key, rest) ← readKey text
    match rest with
    | '=' :: rest =>
      let (item, rest) ← readValue fuel depth (skipBlank rest)
      let entries ← defineKey key item entries
      match skipBlank rest with
      | ',' :: rest => readMembers fuel depth entries rest
      | '\x7d' :: rest => some (entries, rest)
      | _ => none
    | _ => none

end

/-! ## Statements -/

/-- A line that says something. -/
inductive Statement where
  | define (key : List String) (item : Item)
  /-- The header of a table. -/
  | header (path : List String)
  /-- The header of one more table in a list of tables. -/
  | listHeader (path : List String)

def readStatement (text : List Char) : Option (Statement × List Char) :=
  match text with
  | '[' :: '[' :: rest => do
    match ← readKey rest with
    | (path, ']' :: ']' :: rest) => some (.listHeader path, rest)
    | _ => none
  | '[' :: rest => do
    match ← readKey rest with
    | (path, ']' :: rest) => some (.header path, rest)
    | _ => none
  | text => do
    match ← readKey text with
    | (key, '=' :: rest) =>
      let rest := skipBlank rest
      let (item, rest) ← readValue (2 * rest.length + 2) deepest rest
      some (.define key item, rest)
    | _ => none

/-- The statements of a text, in at most `lines` lines. -/
def readStatements : Nat → List Char → Option (List Statement)
  | 0, _ => none
  | lines + 1, text =>
    match endLine? text with
    | some [] => some []
    | some rest => readStatements lines rest
    | none => do
      let (statement, rest) ← readStatement (skipBlank text)
      let rest ← endLine? rest
      (readStatements lines rest).map (statement :: ·)

/-! ## Documents -/

/-- A document under construction: its tables, and the path of the table that
is open. -/
structure Document where
  entries : Entries := []
  current : List String := []

namespace Document

/-- Takes one statement in. -/
def take? (d : Document) : Statement → Option Document
  | .define key item => do
    some { d with entries := ← d.entries.alterUnder d.current (defineKey key item) }
  | .header path => do
    let entries ← d.entries.alterUnder path.dropLast (Entries.openTable (← path.getLast?))
    some ⟨entries, path⟩
  | .listHeader path => do
    let entries ← d.entries.alterUnder path.dropLast (Entries.openListed (← path.getLast?))
    some ⟨entries, path⟩

/-- The document that statements build up. -/
def ofStatements? (statements : List Statement) : Option Document :=
  statements.foldlM take? {}

end Document

/-- Drops one byte order mark. -/
def skipByteOrderMark : List Char → List Char
  | '\ufeff' :: rest => rest
  | text => text

/-- The items of a whole text. -/
def parse? (text : String) : Option Entries := do
  let text := skipByteOrderMark text.toList
  let statements ← readStatements (text.length + 1) text
  Entries.settle? (← Document.ofStatements? statements).entries

end VirtualMarket.Toml
