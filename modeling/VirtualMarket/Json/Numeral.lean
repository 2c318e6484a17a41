/-
VirtualMarket.Json.Numeral — the literals of JSON numbers and their values.

A literal is split into its parts; from them come an integer, where the
literal is one, and a double.  The double is a cheap one, not the nearest:
`scaled?` gathers leading digits in a 64-bit word and multiplies or divides the
word by a power of ten, which rounds up to twice.
-/
import VirtualMarket.Decimal.Numeral

namespace VirtualMarket.Json

open Decimal (spanDigits spanSign naturalOf isDigit digitValue?)

/-- The parts of a number literal. -/
structure Numeral where
  negative : Bool
  whole : List Char
  /-- The digits after the point, empty if there is none. -/
  fraction : List Char
  exponent : Option Int

namespace Numeral

/-! ## Grammar -/

/-- The integer part: a single zero, or digits that do not start with one. -/
def spanWhole : List Char → Option (List Char × List Char)
  | '0' :: rest => some (['0'], rest)
  | text =>
    let (digits, rest) := spanDigits text
    if digits.isEmpty then none else some (digits, rest)

/-- The digits after a point, of which there is at least one. -/
def spanFraction : List Char → Option (List Char × List Char)
  | '.' :: rest =>
    let (digits, rest) := spanDigits rest
    if digits.isEmpty then none else some (digits, rest)
  | text => some ([], text)

/-- The signed digits of an exponent, of which there is at least one. -/
def spanSignedDigits (text : List Char) : Option (Int × List Char) :=
  let (negative, text) := spanSign text
  let (digits, rest) := spanDigits text
  if digits.isEmpty then none
  else some (if negative then -(naturalOf digits : Int) else naturalOf digits, rest)

def spanExponent : List Char → Option (Option Int × List Char)
  | 'e' :: rest => (spanSignedDigits rest).map fun (e, rest) => (some e, rest)
  | 'E' :: rest => (spanSignedDigits rest).map fun (e, rest) => (some e, rest)
  | text => some (none, text)

/-- A number literal at the front of a text, and the rest. -/
def span? (text : List Char) : Option (Numeral × List Char) := do
  let (negative, text) := match text with
    | '-' :: rest => (true, rest)
    | _ => (false, text)
  let (whole, text) ← spanWhole text
  let (fraction, text) ← spanFraction text
  let (exponent, text) ← spanExponent text
  some (⟨negative, whole, fraction, exponent⟩, text)

def ofLiteral? (literal : String) : Option Numeral :=
  match span? literal.toList with
  | some (n, []) => some n
  | _ => none

/-! ## Values -/

/-- The integer, if the literal has neither point nor exponent.  Minus zero is
no integer. -/
def integer? (n : Numeral) : Option Int :=
  if !n.fraction.isEmpty || n.exponent.isSome then none
  else
    let size := naturalOf n.whole
    if n.negative then (if size = 0 then none else some (-size)) else some size

/-- Gathers digits onto a 64-bit word until the next would not fit; gives the
digits left over as well. -/
def gather : Nat → List Char → Nat × List Char
  | word, [] => (word, [])
  | word, c :: rest =>
    let next := 10 * word + (digitValue? c).getD 0
    if next ≤ Decimal.unsigned64.high then gather next rest else (word, c :: rest)

def powerOfTen (n : Nat) : Float :=
  Float.ofScientific 1 false n

/-- `x * 10 ^ exponent` in steps of at most 308 powers of ten; `none` if it is
too large for a double. -/
def scaleBy (x : Float) (exponent : Int) : Option Float :=
  if exponent.natAbs ≤ 308 then
    if 0 ≤ exponent then
      let scaled := x * powerOfTen exponent.toNat
      if scaled.isInf then none else some scaled
    else some (x / powerOfTen (-exponent).toNat)
  else if x == 0 then some x
  else if 0 ≤ exponent then none
  else scaleBy (x / 1e308) (exponent + 308)
termination_by exponent.natAbs
decreasing_by omega

/-- The double that the leading digits of the literal give, scaled by a power
of ten; `none` if it is too large. -/
def scaled? (n : Numeral) : Option Float :=
  let (word, dropped) := gather 0 n.whole
  let (word, ignored) := gather word n.fraction
  let exponent : Int := dropped.length - (n.fraction.length - ignored.length : Nat)
  (scaleBy (Float.ofNat word) (exponent + n.exponent.getD 0)).map fun x =>
    if n.negative then -x else x

end Numeral

end VirtualMarket.Json
