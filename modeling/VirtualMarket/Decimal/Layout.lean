/-
VirtualMarket.Decimal.Layout — how chosen digits are written down.

A `Layout` holds the decisions of one output format.  `Layout.render` is the
only place where a double becomes text; each format keeps its own record
beside what it writes.
-/
import VirtualMarket.Decimal.Shortest

namespace VirtualMarket.Decimal

/-- The decisions of a number format. -/
structure Layout where
  /-- Which way a value halfway between two shortest candidates goes. -/
  tie : Tie
  /-- Whether a whole number is written with `.0`. -/
  wholeFraction : Bool
  /-- Exponents of the leading digit that are written without exponent:
  from the first bound to below the second.  `none` is all of them. -/
  positional : Option (Int × Int)
  /-- The texts for what is not a finite number. -/
  nan : String
  positiveInfinity : String
  negativeInfinity : String

/-- The decimal digits of a natural number, most significant first. -/
def digitsOf (n : Nat) : List Char :=
  Nat.toDigits 10 n

/-- Digits with the point set `places` digits from their left end, which may
lie outside them. -/
def pointed (wholeFraction : Bool) (digits : List Char) (places : Int) : List Char :=
  if (digits.length : Int) ≤ places then
    digits ++ List.replicate (places.toNat - digits.length) '0'
      ++ (if wholeFraction then ['.', '0'] else [])
  else if 0 < places then
    digits.take places.toNat ++ '.' :: digits.drop places.toNat
  else
    '0' :: '.' :: (List.replicate (-places).toNat '0' ++ digits)

/-- One digit, the point before the others, and the signed exponent. -/
def scientific (digits : List Char) (exponent : Int) : List Char :=
  digits.take 1 ++ (if digits.length = 1 then [] else '.' :: digits.drop 1)
    ++ 'e' :: (if exponent < 0 then '-' else '+') :: digitsOf exponent.natAbs

/-- The text of a finite double without its sign. -/
def Layout.renderMagnitude (l : Layout) (x : Float) : List Char :=
  if x == 0 then pointed l.wholeFraction ['0'] 1
  else
    let d := shortest l.tie x.abs
    let digits := digitsOf d.digits
    let places := d.exponent + digits.length
    match l.positional with
    | none => pointed l.wholeFraction digits places
    | some (low, high) =>
      if low ≤ places - 1 && places - 1 < high then pointed l.wholeFraction digits places
      else scientific digits (places - 1)

def Layout.render (l : Layout) (x : Float) : String :=
  if x.isNaN then l.nan
  else if x.isInf then (if isNegative x then l.negativeInfinity else l.positiveInfinity)
  else
    let text := l.renderMagnitude x
    String.ofList (if isNegative x then '-' :: text else text)

/-- The format of answers and messages: the shortest digits, never an
exponent, no point after a whole number. -/
def plain : Layout where
  tie := .awayFromZero
  wholeFraction := false
  positional := none
  nan := "NaN"
  positiveInfinity := "inf"
  negativeInfinity := "-inf"

end VirtualMarket.Decimal
