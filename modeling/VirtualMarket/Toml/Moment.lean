/-
VirtualMarket.Toml.Moment — dates and times in TOML.

Dates and times are checked against the calendar and the clock and kept as they
are written.  They have a second spelling: a table whose first name is
`momentMark` stands for the date or time in the text under that name.
`Item.settle?` puts such dates in the place of their tables.
-/
import VirtualMarket.Decimal.Numeral
import VirtualMarket.Toml.Item

namespace VirtualMarket.Toml

open Decimal (digitValue? isDigit)

/-! ## Dates as scalars -/

/-- A number of two digits. -/
def twoDigits? : List Char → Option (Nat × List Char)
  | a :: b :: rest => do some (10 * (← digitValue? a) + (← digitValue? b), rest)
  | _ => none

/-- Drops one expected character. -/
def expect? (c : Char) : List Char → Option (List Char)
  | d :: rest => if d = c then some rest else none
  | [] => none

/-- The days of a month. -/
def daysIn (year month : Nat) : Nat :=
  if month = 2 then
    if year % 4 = 0 ∧ (year % 100 ≠ 0 ∨ year % 400 = 0) then 29 else 28
  else if month = 4 ∨ month = 6 ∨ month = 9 ∨ month = 11 then 30
  else 31

/-- What follows a date at the front. -/
def skipDate? (text : List Char) : Option (List Char) := do
  let (century, rest) ← twoDigits? text
  let (year, rest) ← twoDigits? rest
  let (month, rest) ← twoDigits? (← expect? '-' rest)
  let (day, rest) ← twoDigits? (← expect? '-' rest)
  if 1 ≤ month ∧ month ≤ 12 ∧ 1 ≤ day ∧ day ≤ daysIn (100 * century + year) month then some rest
  else none

/-- What follows hours and minutes at the front. -/
def skipMinutes? (text : List Char) : Option (List Char) := do
  let (hour, rest) ← twoDigits? text
  let (minute, rest) ← twoDigits? (← expect? ':' rest)
  if hour ≤ 23 ∧ minute ≤ 59 then some rest else none

/-- Drops a point and the digits of a split second. -/
def skipSplitSecond : List Char → List Char
  | '.' :: d :: rest => if isDigit d then rest.dropWhile isDigit else '.' :: d :: rest
  | text => text

/-- What follows a time at the front; a minute may have a leap second. -/
def skipTime? (text : List Char) : Option (List Char) := do
  let (second, rest) ← twoDigits? (← expect? ':' (← skipMinutes? text))
  if second ≤ 60 then some (skipSplitSecond rest) else none

/-- Drops the distance to universal time. -/
def skipOffset : List Char → List Char
  | 'Z' :: rest => rest
  | 'z' :: rest => rest
  | '+' :: rest => (skipMinutes? rest).getD ('+' :: rest)
  | '-' :: rest => (skipMinutes? rest).getD ('-' :: rest)
  | text => text

/-- What follows a time, and its offset, that is joined to a date. -/
def skipJoinedTime? : List Char → Option (List Char)
  | c :: rest =>
    if c = 'T' ∨ c = 't' ∨ c = ' ' then (skipTime? rest).map skipOffset else none
  | [] => none

/-- What follows a date, a date with a time, or a time at the front. -/
def skipMoment? (text : List Char) : Option (List Char) :=
  match skipDate? text with
  | some rest => some ((skipJoinedTime? rest).getD rest)
  | none => skipTime? text

/-- A date or time, kept as it is written. -/
def moment? (text : List Char) : Option (Item × List Char) :=
  (skipMoment? text).map fun rest =>
    (.moment (String.ofList (text.take (text.length - rest.length))), rest)

/-! ## Dates as tables -/

/-- The name that marks a table as a date or time. -/
def momentMark : String :=
  "$__toml_private_datetime"

/-- The date or time that the value after the mark spells, all of its text. -/
def spelledMoment? : Item → Option Item
  | .text text => if skipMoment? text.toList = some [] then some (.moment text) else none
  | _ => none

mutual

/-- An item with dates in the place of marked tables, unless a mark has no date
after it.  The other entries of a marked table do not count. -/
def Item.settle? : Item → Option Item
  | .list items => (settleItems? items).map .list
  | .table origin entries => settleTable? origin entries
  | .listed tables => (settleTables? tables).map fun items => .list items.reverse
  | item => some item

/-- The items of a list, settled. -/
def settleItems? : List Item → Option (List Item)
  | [] => some []
  | item :: rest => do some ((← item.settle?) :: (← settleItems? rest))

/-- The tables of a list, settled. -/
def settleTables? : List (List (String × Item)) → Option (List Item)
  | [] => some []
  | entries :: rest => do some ((← settleTable? .header entries) :: (← settleTables? rest))

/-- A table, settled: its first name tells whether it is one. -/
def settleTable? (origin : Origin) : List (String × Item) → Option Item
  | [] => some (.table origin [])
  | (name, item) :: rest =>
    if name = momentMark then spelledMoment? item
    else do
      let item ← item.settle?
      some (.table origin ((name, item) :: (← settleEntries? rest)))

/-- The entries of a table after the first, settled. -/
def settleEntries? : List (String × Item) → Option (List (String × Item))
  | [] => some []
  | (name, item) :: rest => do
    let item ← item.settle?
    some ((name, item) :: (← settleEntries? rest))

end

/-- The entries of a document, settled.  A document is no date. -/
def Entries.settle? (entries : Entries) : Option Entries := do
  match ← settleTable? .header entries with
  | .table _ entries => some entries
  | _ => none

end VirtualMarket.Toml
