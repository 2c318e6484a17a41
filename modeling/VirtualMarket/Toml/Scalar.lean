/-
VirtualMarket.Toml.Scalar — numbers and other values without quotes in TOML.

Single underscores may stand between two digits and count for nothing.  A whole
number in base ten has no leading zero and must fit 64 bits.  A number with a
point or an exponent is the nearest double; one so large that it would become
infinity is refused.
-/
import VirtualMarket.Text.Hex
import VirtualMarket.Toml.Moment

namespace VirtualMarket.Toml

open Decimal (doubleOf infinity)

/-! ## Digits -/

/-- Whether a character is a digit of a base up to sixteen. -/
def isDigitOf (base : Nat) (c : Char) : Bool :=
  (Text.hexValue? c).any (· < base)

/-- Digits that have been read, and what follows them. -/
abbrev Digits := Option (List Char × List Char)

/-- Puts a digit in front of the others. -/
def Digits.push (c : Char) (digits : Digits) : Digits :=
  digits.map fun (later, rest) => (c :: later, rest)

/-- More digits after a first one.  An underscore needs a digit after it. -/
def moreDigits (base : Nat) : List Char → Digits
  | '_' :: c :: rest => if isDigitOf base c then (moreDigits base rest).push c else none
  | c :: rest =>
    if isDigitOf base c then (moreDigits base rest).push c
    else if c = '_' then none
    else some ([], c :: rest)
  | [] => some ([], [])

/-- One or more digits, without their underscores. -/
def digits? (base : Nat) : List Char → Digits
  | c :: rest => if isDigitOf base c then (moreDigits base rest).push c else none
  | [] => none

/-- The natural number of digits in a base. -/
def naturalIn (base : Nat) (digits : List Char) : Nat :=
  digits.foldl (fun value c => base * value + (Text.hexValue? c).getD 0) 0

/-! ## Numbers -/

/-- A whole number of 64 bits. -/
def wholeNumber? (n : Int) : Option Item :=
  if Decimal.signed64.contains n then some (.integer n) else none

/-- A whole number in another base, after its mark. -/
def based? (base : Nat) (text : List Char) : Option (Item × List Char) := do
  let (digits, rest) ← digits? base text
  some (← wholeNumber? (naturalIn base digits), rest)

/-- The digits before the point: a single zero, or digits that start with no
zero. -/
def wholeDigits? : List Char → Digits
  | '0' :: rest => some (['0'], rest)
  | text => digits? 10 text

/-- The digits after a point, if there is one. -/
def fraction? : List Char → Option (Option (List Char) × List Char)
  | '.' :: rest => (digits? 10 rest).map fun (digits, rest) => (some digits, rest)
  | text => some (none, text)

/-- An exponent with its sign. -/
def signedExponent? (text : List Char) : Option (Option Int × List Char) := do
  let (negative, text) := Decimal.spanSign text
  let (digits, rest) ← digits? 10 text
  let size : Int := Decimal.naturalOf digits
  some (some (if negative then -size else size), rest)

/-- The exponent, if there is one. -/
def exponent? : List Char → Option (Option Int × List Char)
  | 'e' :: rest => signedExponent? rest
  | 'E' :: rest => signedExponent? rest
  | text => some (none, text)

/-- A double that is no overflow. -/
def finiteReal? (x : Float) : Option Item :=
  if x == infinity then none else some (.real x)

/-- A number in base ten after its sign. -/
def decimal? (negative : Bool) (text : List Char) : Option (Item × List Char) := do
  let (whole, rest) ← wholeDigits? text
  let (fraction, rest) ← fraction? rest
  let (exponent, rest) ← exponent? rest
  match fraction, exponent with
  | none, none =>
    let size : Int := Decimal.naturalOf whole
    some (← wholeNumber? (if negative then -size else size), rest)
  | _, _ =>
    let x := doubleOf negative whole (fraction.getD []) (exponent.getD 0)
    some (← finiteReal? x, rest)

/-- A number after its sign; the words for infinity and NaN count as numbers. -/
def unsigned? (negative : Bool) : List Char → Option (Item × List Char)
  | 'i' :: 'n' :: 'f' :: rest => some (.real (if negative then -infinity else infinity), rest)
  | 'n' :: 'a' :: 'n' :: rest => some (.real (0 / 0), rest)
  | text => decimal? negative text

def number? : List Char → Option (Item × List Char)
  | '0' :: 'x' :: rest => based? 16 rest
  | '0' :: 'o' :: rest => based? 8 rest
  | '0' :: 'b' :: rest => based? 2 rest
  | '+' :: rest => unsigned? false rest
  | '-' :: rest => unsigned? true rest
  | text => unsigned? false text

/-! ## Scalars without quotes -/

/-- A truth value, a date or time, or a number. -/
def scalar? : List Char → Option (Item × List Char)
  | 't' :: 'r' :: 'u' :: 'e' :: rest => some (.boolean true, rest)
  | 'f' :: 'a' :: 'l' :: 's' :: 'e' :: rest => some (.boolean false, rest)
  | text => (moment? text).or (number? text)

end VirtualMarket.Toml
