/-
VirtualMarket.Proofs.Settings.Written — values read from the lines they are written on.

Any double and any integer of 64 bits is read from its line as it was written: finite
doubles by their digits, the others by their words.
-/
import VirtualMarket.Proofs.Toml.Scalar
import VirtualMarket.Settings.Printer

namespace VirtualMarket.Settings

open Decimal (digitsOf)
open Double (view)

namespace Written

/-- A value as an item of a document. -/
def item : Written → Toml.Item
  | .real value => .real value
  | .integer value => .integer value
  | .boolean value => .boolean value

theorem settle?_item (w : Written) : w.item.settle? = some w.item := by
  cases w <;> rfl

variable {rest : List Char}

/-- An integer of 64 bits is read from its line. -/
theorem scalar?_integer {n : Int} (h : Decimal.signed64.contains n = true) :
    Toml.scalar? ((Written.integer n).text.toList ++ '\n' :: rest) =
      some (.integer n, '\n' :: rest) := by
  have hline : (Written.integer n).text.toList ++ '\n' :: rest =
      if decide (n < 0) = true then '-' :: (digitsOf n.natAbs ++ '\n' :: rest)
      else digitsOf n.natAbs ++ '\n' :: rest := by
    rw [text, Decimal.toList_toString_int]
    split <;> simp_all
  have hvalue : (if decide (n < 0) = true then -(n.natAbs : Int) else n.natAbs) = n := by
    by_cases hneg : n < 0
    · rw [if_pos (decide_eq_true hneg)]
      omega
    · rw [if_neg (by simpa using hneg)]
      omega
  have hdigits := Decimal.whole_digitsOf n.natAbs
  rw [hline, Toml.scalar?_signed _ hdigits (.inr rfl), Toml.decimal?_whole _ hdigits,
    Decimal.naturalOf_digitsOf, hvalue, Toml.wholeNumber?, if_pos h]
  rfl

/-- A finite double is read from its line. -/
theorem scalar?_finite {x : Float} (hx : x.isFinite = true) (hnan : x.isNaN = false)
    (hinf : x.isInf = false) :
    Toml.scalar? ((Written.real x).text.toList ++ '\n' :: rest) = some (.real x, '\n' :: rest) := by
  obtain ⟨whole, fraction, htext, hread⟩ :=
    Decimal.exists_renderMagnitude (l := numberLayout) rfl rfl hx
  have hline : (Written.real x).text.toList ++ '\n' :: rest =
      if Decimal.isNegative x = true then '-' :: (whole ++ '.' :: (fraction ++ '\n' :: rest))
      else whole ++ '.' :: (fraction ++ '\n' :: rest) := by
    rw [text, Decimal.Layout.render, hnan, hinf, if_neg (by decide), if_neg (by decide),
      String.toList_ofList, htext.eq]
    split <;> simp
  have hvalue : Decimal.doubleOf (Decimal.isNegative x) whole fraction 0 = x := by
    rw [Decimal.doubleOf, hread]
    exact Double.signed_abs hnan
  have hdecimal : Toml.decimal? (Decimal.isNegative x) (_ ++ '\n' :: rest) = _ :=
    Toml.decimal?_pointed (Decimal.isNegative x) htext
  rw [htext.eq, List.append_assoc, List.cons_append, hvalue, Toml.finiteReal?_eq hx] at hdecimal
  rw [hline, Toml.scalar?_signed _ htext.before (.inl rfl), hdecimal]
  rfl

/-- Any double is read from its line. -/
theorem scalar?_real (x : Float) :
    Toml.scalar? ((Written.real x).text.toList ++ '\n' :: rest) = some (.real x, '\n' :: rest) := by
  have hnan : x.isNaN = (view x).isNaN := rfl
  have hinf : x.isInf = (view x).isInf := rfl
  have hfin : x.isFinite = (view x).isFinite := rfl
  cases hv : view x with
  | notANumber =>
    obtain rfl : x = 0 / 0 := Double.eq_of_view (hv.trans rfl)
    exact Toml.scalar?_nan
  | infinity s =>
    cases s with
    | positive =>
      obtain rfl : x = Decimal.infinity := Double.eq_of_view (hv.trans rfl)
      exact Toml.scalar?_infinity
    | negative =>
      obtain rfl : x = -Decimal.infinity := Double.eq_of_view (hv.trans rfl)
      exact Toml.scalar?_minus_infinity
  | zero s | finite s m e h =>
    rw [hv] at hnan hinf hfin
    exact scalar?_finite hfin hnan hinf

theorem scalar?_text {w : Written} (h : w.fits = true) :
    Toml.scalar? (w.text.toList ++ '\n' :: rest) = some (w.item, '\n' :: rest) := by
  cases w with
  | real x => exact scalar?_real x
  | integer n => exact scalar?_integer h
  | boolean b => cases b <;> rfl

end Written

end VirtualMarket.Settings
