/-
VirtualMarket.Proofs.Double.Error — how far rounding goes.

A real is rounded by half a step of its grid at most.  At the lower end of the
doubles that tells which reals are rounded to zero, and at the upper end which
are still rounded to a finite double: those that are less than half a step above
the largest one.
-/
import VirtualMarket.Proofs.Double.Difference

namespace VirtualMarket.Double

open Float.Model
open Float.Model.UnpackedFloat

variable {x y : Float} {r : ℝ} {u : UnpackedFloat}

/-! ## Half a step -/

theorem abs_nearestEven_sub_le (r : ℝ) : |nearestEven r - r| ≤ 1 / 2 := by
  have hfloor := Int.floor_add_fract r
  have hfract := Int.fract_nonneg r
  have hlt := Int.fract_lt_one r
  rw [abs_le]
  unfold nearestEven
  split_ifs with h h'
  · constructor <;> linarith
  · rcases Int.emod_two_eq_zero_or_one ⌊r⌋ with hp | hp <;> rw [hp] <;> push_cast <;>
      constructor <;> linarith
  · have hgt : 1 / 2 < Int.fract r := lt_of_le_of_ne (not_lt.mp h) (Ne.symm h')
    push_cast
    constructor <;> linarith

/-- What is less than half above a whole number is not rounded beyond it. -/
theorem nearestEven_le_of_lt {n : ℤ} (h : r < n + 1 / 2) : nearestEven r ≤ n := by
  have hle := (abs_le.mp (abs_nearestEven_sub_le r)).2
  have hlt : ((nearestEven r : ℤ) : ℝ) < (n + 1 : ℤ) := by
    push_cast
    linarith
  exact Int.lt_add_one_iff.mp (by exact_mod_cast hlt)

theorem abs_rounded_sub_le (r : ℝ) : |rounded r - r| ≤ 2 ^ gridExponent r / 2 := by
  have hp : (0 : ℝ) < 2 ^ gridExponent r := by positivity
  have hr : rounded r - r =
      (nearestEven (r / 2 ^ gridExponent r) - r / 2 ^ gridExponent r) * 2 ^ gridExponent r := by
    rw [rounded, sub_mul, div_mul_cancel₀ _ hp.ne']
  rw [hr, abs_mul, abs_of_pos hp]
  have := mul_le_mul_of_nonneg_right (abs_nearestEven_sub_le (r / 2 ^ gridExponent r)) hp.le
  linarith

/-! ## Underflow -/

theorem nearestEven_half : nearestEven (1 / 2) = 0 := by
  have hfloor : ⌊(1 / 2 : ℝ)⌋ = 0 := by norm_num
  have hfract : Int.fract (1 / 2 : ℝ) = 1 / 2 := by
    rw [Int.fract, hfloor]
    norm_num
  rw [nearestEven, hfract, if_neg (lt_irrefl _), if_pos rfl, hfloor]
  rfl

/-- What is rounded to zero is no more than half of the least positive double. -/
theorem rounded_eq_zero_iff (hr : 0 < r) : rounded r = 0 ↔ r ≤ 2 ^ (-1075 : ℤ) := by
  have hp : (0 : ℝ) < 2 ^ gridExponent r := by positivity
  have hz : rounded r = 0 ↔ nearestEven (r / 2 ^ gridExponent r) = 0 := by
    rw [rounded, mul_eq_zero, or_iff_left hp.ne', Int.cast_eq_zero]
  have hhalf : (2 : ℝ) ^ (-1075 : ℤ) = 1 / 2 * 2 ^ (-1074 : ℤ) := by
    rw [show (-1074 : ℤ) = -1075 + 1 from rfl, zpow_add_one₀ two_ne_zero]
    ring
  rw [hz]
  by_cases hg : gridExponent r = -1074
  · rw [hg, hhalf, ← div_le_iff₀ (by positivity)]
    have ht : 0 < r / 2 ^ (-1074 : ℤ) := by positivity
    constructor
    · intro h0
      have := (abs_le.mp (abs_nearestEven_sub_le (r / 2 ^ (-1074 : ℤ)))).1
      rw [h0, Int.cast_zero] at this
      linarith
    · intro hle
      -- a half is rounded to the even zero
      have hmono := nearestEven_mono hle
      rw [nearestEven_half] at hmono
      have hlow := (nearestEven_bounds (r / 2 ^ (-1074 : ℤ))).1
      have hfloor := Int.floor_nonneg.mpr ht.le
      omega
  · have hge := le_nearestEven_grid hr hg
    refine iff_of_false (by omega) (not_le.mpr ?_)
    have hlow : (2 : ℝ) ^ (-1074 : ℤ) ≤ 2 ^ gridExponent r :=
      zpow_le_zpow_right₀ (by norm_num) (le_max_right _ _)
    have hr52 := (le_div_iff₀ hp).mp (le_div_gridExponent hr hg)
    have hpos : (0 : ℝ) < 2 ^ (-1074 : ℤ) := by positivity
    linarith

/-! ## Overflow -/

/-- Less than half a step above the largest double nothing is rounded beyond it. -/
theorem rounded_le_largestFinite (hr : 0 < r)
    (h : r < real Decimal.largestFinite + 2 ^ (970 : ℤ)) :
    rounded r ≤ real Decimal.largestFinite := by
  -- `b` is half a step of the grid around the largest double
  obtain ⟨b, hb⟩ : ∃ b : ℝ, (2 : ℝ) ^ (970 : ℤ) = b := ⟨_, rfl⟩
  have hpos : 0 < b := hb ▸ by positivity
  have hstep : (2 : ℝ) ^ (971 : ℤ) = 2 * b := by
    rw [show (971 : ℤ) = 970 + 1 from rfl, zpow_add_one₀ two_ne_zero, hb, mul_comm]
  have hlarge : real Decimal.largestFinite = (2 ^ 53 - 1) * (2 * b) := by
    rw [real_largestFinite, dyadic, hstep]
    norm_num
  rw [hb, hlarge] at h
  rw [hlarge]
  rcases lt_or_ge (gridExponent r) 971 with hg | hg
  · have hsteps : (nearestEven (r / 2 ^ gridExponent r) : ℝ) ≤ 2 ^ 53 := by
      exact_mod_cast nearestEven_grid_le r
    have hfine : (2 : ℝ) ^ gridExponent r ≤ b := by
      rw [← hb]
      exact zpow_le_zpow_right₀ (by norm_num) (by omega)
    calc rounded r ≤ 2 ^ 53 * b := mul_le_mul hsteps hfine (by positivity) (by norm_num)
      _ ≤ (2 ^ 53 - 1) * (2 * b) := by linarith only [hpos]
  · have hlog : Int.log 2 r < 1024 := by
      rw [← Int.lt_zpow_iff_log_lt (by norm_num) hr, Nat.cast_ofNat,
        show (1024 : ℤ) = 53 + 971 from rfl, zpow_add₀ two_ne_zero, hstep]
      norm_num
      linarith only [h, hpos]
    have heq : gridExponent r = 971 := by
      unfold gridExponent at hg ⊢
      omega
    have hsteps : nearestEven (r / (2 * b)) ≤ 2 ^ 53 - 1 := by
      refine nearestEven_le_of_lt ?_
      rw [div_lt_iff₀ (by positivity)]
      push_cast
      linarith only [h]
    rw [rounded, heq, hstep]
    gcongr
    exact_mod_cast hsteps

/-- Parts that round a real within half a step of the doubles are a positive
double. -/
theorem positive_of_rounds (hu : Rounds r u) (hs : sign? u = some .positive)
    (hlow : 2 ^ (-1075 : ℤ) < r) (hhigh : r < real Decimal.largestFinite + 2 ^ (970 : ℤ)) :
    Positive (ofView u) ∧ real (ofView u) = rounded r := by
  have hr : 0 < r := lt_trans (by positivity) hlow
  cases hu with
  | zero s h0 => exact absurd ((rounded_eq_zero_iff hr).mp h0) (not_le.mpr hlow)
  | @finite s m e hm hg hd =>
    cases hs
    have he : e ≤ 971 := by
      by_contra hlt
      have hle := rounded_le_largestFinite hr hhigh
      have hgrid : OnGrid (2 ^ 53 - 1) 971 := ⟨by norm_num, by norm_num, .inl (by norm_num)⟩
      have := dyadic_lt_of_exponent_lt hgrid hg (by omega)
      rw [real_largestFinite] at hle
      linarith
    have hv := view_ofView_finite .positive hm hg he
    exact ⟨⟨m, e, hm, hv⟩, by rw [real_of_view hv, hd]⟩

/-- Parts that round half of the least positive double or less are zero. -/
theorem zero_of_rounds (hu : Rounds r u) (hs : sign? u = some .positive) (hr : 0 < r)
    (h : r ≤ 2 ^ (-1075 : ℤ)) : ofView u = 0 := by
  have h0 := (rounded_eq_zero_iff hr).mpr h
  cases hu with
  | zero s _ =>
    cases hs
    rfl
  | @finite s m e hm hg hd => exact absurd (hd.trans h0) (dyadic_pos hm e).ne'

end VirtualMarket.Double
