/-
VirtualMarket.Decimal.Numeral — number texts.

Integer texts are read against a range, digit by digit from the left, so the
first character that fails decides the flaw.  Real texts follow the usual
grammar: sign, digits with an optional point, optional exponent, or one of the
words for infinity and NaN in any case.
-/
import VirtualMarket.Decimal.Shortest

namespace VirtualMarket.Decimal

/-! ## Digits -/

/-- The value of an ASCII digit. -/
def digitValue? (c : Char) : Option Nat :=
  if '0' ≤ c ∧ c ≤ '9' then some (c.toNat - 48) else none

def isDigit (c : Char) : Bool :=
  (digitValue? c).isSome

/-- The natural number a run of digits stands for; other characters count as
zero. -/
def naturalOf (digits : List Char) : Nat :=
  digits.foldl (fun value c => 10 * value + (digitValue? c).getD 0) 0

/-- The digits at the front of a text, and the rest. -/
def spanDigits (text : List Char) : List Char × List Char :=
  (text.takeWhile isDigit, text.dropWhile isDigit)

/-! ## Integers -/

/-- Why a text is no integer of a range. -/
inductive IntegerFlaw where
  | empty
  | invalidDigit
  | tooLarge
  | tooSmall
deriving Repr, DecidableEq

def IntegerFlaw.message : IntegerFlaw → String
  | .empty => "cannot parse integer from empty string"
  | .invalidDigit => "invalid digit found in string"
  | .tooLarge => "number too large to fit in target type"
  | .tooSmall => "number too small to fit in target type"

/-- Reads digits onto `value`.  A character that is no digit is refused before
the number it would give is compared with the limit. -/
def readMagnitude (limit : Nat) (beyond : IntegerFlaw) : Nat → List Char → Except IntegerFlaw Nat
  | value, [] => .ok value
  | value, c :: rest =>
    match digitValue? c with
    | none => .error .invalidDigit
    | some d =>
      if limit < 10 * value + d then .error beyond
      else readMagnitude limit beyond (10 * value + d) rest

/-- The integers from `-below` to `high`.  Where `below` is zero a minus sign
is no part of the grammar. -/
structure IntegerRange where
  below : Nat
  high : Nat
deriving Repr, DecidableEq

def IntegerRange.contains (range : IntegerRange) (n : Int) : Bool :=
  -(range.below : Int) ≤ n && n ≤ range.high

/-- Reads an optional sign and one or more ASCII digits. -/
def IntegerRange.read (range : IntegerRange) : List Char → Except IntegerFlaw Int
  | [] => .error .empty
  | ['+'] => .error .invalidDigit
  | ['-'] => .error .invalidDigit
  | '+' :: rest => (readMagnitude range.high .tooLarge 0 rest).map Int.ofNat
  | '-' :: rest =>
    if range.below = 0 then .error .invalidDigit
    else (readMagnitude range.below .tooSmall 0 rest).map (fun n => -(n : Int))
  | text => (readMagnitude range.high .tooLarge 0 text).map Int.ofNat

def signed64 : IntegerRange := ⟨0x8000000000000000, 0x7FFFFFFFFFFFFFFF⟩

def unsigned64 : IntegerRange := ⟨0, 0xFFFFFFFFFFFFFFFF⟩

def signed128 : IntegerRange :=
  ⟨0x80000000000000000000000000000000, 0x7FFFFFFFFFFFFFFFFFFFFFFFFFFFFFFF⟩

/-! ## Reals -/

/-- The double nearest to `whole.fraction * 10 ^ exponent`. -/
def doubleOf (negative : Bool) (whole fraction : List Char) (exponent : Int) : Float :=
  let size := Scaled.toDouble ⟨naturalOf (whole ++ fraction), exponent - fraction.length⟩
  if negative then -size else size

/-- Reads an optional sign off the front; `true` is a minus. -/
def spanSign : List Char → Bool × List Char
  | '-' :: rest => (true, rest)
  | '+' :: rest => (false, rest)
  | text => (false, text)

/-- Reads the digits of an exponent, with its sign, to the end of the text. -/
def readExponent? (text : List Char) : Option Int :=
  let (negative, digits) := spanSign text
  if digits.isEmpty || !digits.all isDigit then none
  else some (if negative then -(naturalOf digits : Int) else naturalOf digits)

/-- An exponent part after the mark `e`, or nothing at all. -/
def readExponentPart? : List Char → Option Int
  | [] => some 0
  | 'e' :: rest => readExponent? rest
  | 'E' :: rest => readExponent? rest
  | _ => none

/-- The words for what is not a finite number. -/
def readWord? (text : List Char) : Option Float :=
  match String.ofList (text.map Char.toLower) with
  | "inf" => some infinity
  | "infinity" => some infinity
  | "nan" => some (0 / 0)
  | _ => none

/-- Reads digits with an optional point, of which at least one digit must be
there, and an optional exponent. -/
def readUnsigned? (negative : Bool) (text : List Char) : Option Float :=
  let (whole, rest) := spanDigits text
  let (fraction, rest) := match rest with
    | '.' :: rest => spanDigits rest
    | rest => ([], rest)
  if whole.isEmpty && fraction.isEmpty then none
  else (readExponentPart? rest).map (doubleOf negative whole fraction)

def readDouble? (text : List Char) : Option Float :=
  let (negative, body) := spanSign text
  match readWord? body with
  | some x => some (if negative then -x else x)
  | none => readUnsigned? negative body

end VirtualMarket.Decimal
