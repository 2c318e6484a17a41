/-
VirtualMarket.Settings.Coerce — values of a tree as numbers and truth values.

Sources are loose about types, so a setting takes every value with a clear
meaning: numbers as truth values and the other way round, texts that spell
either, and reals rounded to whole numbers.
-/
import VirtualMarket.Settings.Tree
import VirtualMarket.Decimal.Numeral

namespace VirtualMarket.Settings

open Decimal (toIntWithin)

/-- The truth value of a word, in any case. -/
def wordTruth? (word : String) : Option Bool :=
  match lowerName word with
  | "true" => some true
  | "on" => some true
  | "yes" => some true
  | "false" => some false
  | "off" => some false
  | "no" => some false
  | _ => none

namespace Tree

def toReal? : Tree → Option Float
  | .real x => some x
  | .integer n => some (Float.ofInt n)
  | .boolean b => some (if b then 1 else 0)
  | .text s =>
    match wordTruth? s with
    | some b => some (if b then 1 else 0)
    | none => Decimal.readDouble? s.toList
  | _ => none

/-- A value as an integer of a range. -/
def toIntegerIn? (range : Decimal.IntegerRange) : Tree → Option Int
  | .integer n => if range.contains n then some n else none
  | .real x => some (toIntWithin (-(range.below : Int)) range.high x)
  | .boolean b => some (if b then 1 else 0)
  | .text s =>
    match wordTruth? s with
    | some b => some (if b then 1 else 0)
    | none => (range.read s.toList).toOption
  | _ => none

def toBoolean? : Tree → Option Bool
  | .boolean b => some b
  | .integer n => some (n != 0)
  | .real x => some (x != 0)
  | .text "1" => some true
  | .text "0" => some false
  | .text s => wordTruth? s
  | _ => none

end Tree

end VirtualMarket.Settings
