/-
VirtualMarket.Proofs.Double.Product — products of positive doubles, and the range
in which rounding stays.

A product of mantissas is exact, and then rounded, provided that it has bits
enough for the grid around it.  Rounding leaves powers of two alone, so what lies
between two of them stays between them; that is all it takes to see that a result
is neither zero nor infinite.
-/
import VirtualMarket.Proofs.Double.Sum

namespace VirtualMarket.Double

open Float.Model
open Float.Model.UnpackedFloat

variable {x y c : Float} {r : ℝ} {u : UnpackedFloat}

/-! ## Powers of two -/

/-- A power of two in the range of exponents is a point of the grid. -/
theorem exists_dyadic_two_zpow {a : ℤ} (ha : -1074 ≤ a) :
    ∃ m e, 0 < m ∧ OnGrid m e ∧ dyadic m e = 2 ^ a := by
  rcases le_or_gt (-1022) a with h | h
  · refine ⟨2 ^ 52, a - 52, by positivity, ⟨by norm_num, by omega, .inl le_rfl⟩, ?_⟩
    rw [dyadic, Nat.cast_pow, Nat.cast_ofNat, ← zpow_natCast, ← zpow_add₀ two_ne_zero]
    congr 1
    omega
  · refine ⟨2 ^ (a + 1074).toNat, -1074, by positivity, ⟨?_, le_rfl, .inr rfl⟩, ?_⟩
    · exact Nat.pow_lt_pow_right (by norm_num) (by omega)
    · rw [dyadic, Nat.cast_pow, Nat.cast_ofNat, ← zpow_natCast, ← zpow_add₀ two_ne_zero]
      congr 1
      omega

theorem rounded_two_zpow {a : ℤ} (ha : -1074 ≤ a) : rounded (2 ^ a) = 2 ^ a := by
  obtain ⟨m, e, hm, hg, hd⟩ := exists_dyadic_two_zpow ha
  rw [← hd, rounded_dyadic hm hg]

theorem two_zpow_le_rounded {a : ℤ} (ha : -1074 ≤ a) (h : 2 ^ a ≤ r) : 2 ^ a ≤ rounded r := by
  rw [← rounded_two_zpow ha]
  exact rounded_mono (by positivity) h

theorem rounded_le_two_zpow {a : ℤ} (ha : -1074 ≤ a) (hr : 0 < r) (h : r ≤ 2 ^ a) :
    rounded r ≤ 2 ^ a := by
  rw [← rounded_two_zpow ha]
  exact rounded_mono hr h

/-! ## Doubles between powers of two -/

/-- A double that lies between two powers of two, so is neither zero nor infinite. -/
structure Within (a b : ℤ) (x : Float) : Prop where
  positive : Positive x
  low : 2 ^ a ≤ real x
  high : real x ≤ 2 ^ b

variable {a b a' b' : ℤ}

/-- Below the largest power of two the exponent of a point of the grid is that of a
double. -/
theorem OnGrid.exponent_le_of_dyadic_le {m : Nat} {e : Int} (hg : OnGrid m e)
    (h : dyadic m e ≤ 2 ^ (1023 : ℤ)) : e ≤ 971 := by
  by_contra hlt
  obtain ⟨m', e', hm', hg', hd'⟩ := exists_dyadic_two_zpow (a := 1023) (by norm_num)
  have he' : e' = 971 := by
    have := gridExponent_dyadic hm' hg'
    rw [hd', gridExponent, ← Nat.cast_ofNat (R := ℝ), Int.log_zpow (by norm_num)] at this
    omega
  have := dyadic_lt_of_exponent_lt hg' hg (by omega)
  linarith

/-- Parts that round a real between two powers of two are a double between them, and
the double is the rounded real. -/
theorem Within.of_rounds (hu : Rounds r u) (hs : sign? u = some .positive) (ha : -1074 ≤ a)
    (hb : b ≤ 1023) (hlow : 2 ^ a ≤ r) (hhigh : r ≤ 2 ^ b) :
    Within a b (ofView u) ∧ real (ofView u) = rounded r := by
  have hpos : 0 < r := lt_of_lt_of_le (by positivity) hlow
  have hab : a ≤ b := (zpow_le_zpow_iff_right₀ (by norm_num)).mp (hlow.trans hhigh)
  have hmin : (2 : ℝ) ^ a ≤ rounded r := two_zpow_le_rounded ha hlow
  have hmax : rounded r ≤ 2 ^ b := rounded_le_two_zpow (ha.trans hab) hpos hhigh
  cases hu with
  | zero s h0 => exact absurd (h0 ▸ hmin) (not_le.mpr (by positivity))
  | @finite s m e hm hg hd =>
    cases hs
    have hlast : (2 : ℝ) ^ b ≤ 2 ^ (1023 : ℤ) := zpow_le_zpow_right₀ (by norm_num) hb
    have he := hg.exponent_le_of_dyadic_le (hd ▸ hmax.trans hlast)
    have hv := view_ofView_finite .positive hm hg he
    have hreal : real (ofView (.finite .positive m e hm)) = rounded r := by
      rw [real_of_view hv, hd]
    exact ⟨⟨⟨m, e, hm, hv⟩, hreal ▸ hmin, hreal ▸ hmax⟩, hreal⟩

theorem Within.mono (h : Within a b x) (ha : a' ≤ a) (hb : b ≤ b') : Within a' b' x :=
  ⟨h.positive, (zpow_le_zpow_right₀ (by norm_num) ha).trans h.low,
    h.high.trans (zpow_le_zpow_right₀ (by norm_num) hb)⟩

/-! ## Products -/

/-- Multiplication of parts rounds the real product, if the product is wide
enough. -/
theorem rounds_mul {m m' : Nat} {e e' : Int} (h : 0 < m) (h' : 0 < m') (s s' : Sign)
    (he : e + e' ≤ gridExponent (dyadic m e * dyadic m' e')) :
    Rounds (dyadic m e * dyadic m' e')
      (UnpackedFloat.mul .binary64 (.finite s m e h) (.finite s' m' e' h')) := by
  have hw : dyadic m e * dyadic m' e' / 2 ^ (e + e') = (m * m' : ℕ) := by
    rw [dyadic, dyadic, zpow_add₀ two_ne_zero]
    push_cast
    field_simp
  have hr := represents_natCast (m * m')
  rw [← hw] at hr
  exact rounds_roundWithAccuracy _ (mul_pos (dyadic_pos h e) (dyadic_pos h' e')) hr he

theorem dyadic_mul (m m' : Nat) (e e' : Int) :
    dyadic m e * dyadic m' e' = dyadic (m * m') (e + e') := by
  rw [dyadic, dyadic, dyadic, zpow_add₀ two_ne_zero]
  push_cast
  ring

/-- A product with a factor of 53 bits is wide enough. -/
theorem exponent_le_gridExponent_mul {m m' : Nat} {e e' : Int} (h : 2 ^ 52 ≤ m) (h' : 0 < m') :
    e + e' ≤ gridExponent (dyadic m e * dyadic m' e') := by
  have hle : 2 ^ 52 ≤ m * m' := h.trans (Nat.le_mul_of_pos_right m h')
  have hlog : 52 ≤ (m * m').log2 := (Nat.le_log2 (by omega)).mpr hle
  rw [dyadic_mul, gridExponent, log_dyadic (by positivity)]
  omega

/-- Mantissas on the grid have a product that is wide enough: either one of them has
all its bits, or the product is below the least exponent. -/
theorem OnGrid.exponent_le {m m' : Nat} {e e' : Int} (hg : OnGrid m e) (hg' : OnGrid m' e')
    (h : 0 < m) (h' : 0 < m') : e + e' ≤ gridExponent (dyadic m e * dyadic m' e') := by
  rcases hg.full with hm | rfl
  · exact exponent_le_gridExponent_mul hm h'
  · rcases hg'.full with hm' | rfl
    · rw [add_comm, mul_comm]
      exact exponent_le_gridExponent_mul hm' h
    · exact le_trans (by norm_num) (le_max_right _ _)

theorem Positive.mul_rounds (hx : Positive x) (hy : Positive y) :
    ∃ u, x * y = ofView u ∧ sign? u = some .positive ∧ Rounds (real x * real y) u := by
  obtain ⟨m, e, hm, hvx⟩ := hx
  obtain ⟨m', e', hm', hvy⟩ := hy
  have hw := (onGrid_of_view hvx).1.exponent_le (onGrid_of_view hvy).1 hm hm'
  refine ⟨_, mul_eq_ofView, ?_, ?_⟩
  · rw [hvx, hvy]
    exact sign?_roundWithAccuracy ..
  · rw [hvx, hvy, real_of_view hvx, real_of_view hvy]
    exact rounds_mul hm hm' _ _ hw

theorem Positive.mul_one (hx : Positive x) : x * 1 = x := by
  obtain ⟨u, hu, hs, hr⟩ := hx.mul_rounds positive_one
  rw [real_one, show real x * 1 = real x by ring] at hr
  rw [hu, hx.eq_view hr hs, ofView_view]

theorem Positive.add_rounds (hx : Positive x) (hy : Positive y) :
    ∃ u, x + y = ofView u ∧ sign? u = some .positive ∧ Rounds (real x + real y) u := by
  obtain ⟨m, e, hm, hvx⟩ := hx
  obtain ⟨m', e', hm', hvy⟩ := hy
  obtain ⟨hr, hs⟩ := rounds_add hm hm' e e'
  refine ⟨_, add_eq_ofView, ?_, ?_⟩
  · rw [hvx, hvy]
    exact hs
  · rw [hvx, hvy, real_of_view hvx, real_of_view hvy]
    exact hr

/-! ## Operations between powers of two -/

theorem Within.mul (hx : Within a b x) (hy : Within a' b' y) (ha : -1074 ≤ a + a')
    (hb : b + b' ≤ 1023) : Within (a + a') (b + b') (x * y) := by
  obtain ⟨u, hu, hs, hr⟩ := hx.positive.mul_rounds hy.positive
  rw [hu]
  refine (Within.of_rounds hr hs ha hb ?_ ?_).1
  · rw [zpow_add₀ two_ne_zero]
    exact mul_le_mul hx.low hy.low (by positivity) hx.positive.real_pos.le
  · rw [zpow_add₀ two_ne_zero]
    exact mul_le_mul hx.high hy.high hy.positive.real_pos.le (by positivity)

theorem Within.div (hx : Within a b x) (hy : Within a' b' y) (ha : -1074 ≤ a - b')
    (hb : b - a' ≤ 1023) : Within (a - b') (b - a') (x / y) := by
  obtain ⟨u, hu, hs, hr⟩ := hx.positive.div_rounds hy.positive
  rw [hu]
  refine (Within.of_rounds hr hs ha hb ?_ ?_).1
  · rw [zpow_sub₀ two_ne_zero]
    exact div_le_div₀ hx.positive.real_pos.le hx.low hy.positive.real_pos hy.high
  · rw [zpow_sub₀ two_ne_zero]
    exact div_le_div₀ (by positivity) hx.high (by positivity) hy.low

theorem Within.add (hx : Within a b x) (hy : Within a' b y) (ha : -1074 ≤ a') (hb : b + 1 ≤ 1023) :
    Within a' (b + 1) (x + y) := by
  obtain ⟨u, hu, hs, hr⟩ := hx.positive.add_rounds hy.positive
  rw [hu]
  refine (Within.of_rounds hr hs ha hb ?_ ?_).1
  · linarith [hy.low, hx.positive.real_pos]
  · rw [zpow_add_one₀ two_ne_zero]
    linarith [hx.high, hy.high]

end VirtualMarket.Double
