/-
VirtualMarket.Proofs.Double.Grid — the magnitudes of doubles among the reals.

A magnitude is a mantissa times a power of two.  Near a positive real the
magnitudes are the multiples of one power of two, and the real is rounded to
the nearest of them, a half going to the even multiple.  That function is
monotone and leaves magnitudes alone, from which all that is needed about a
rounded result follows: it lies on the same side of every double as the exact
result does.
-/
import VirtualMarket.Proofs.Double.View

namespace VirtualMarket.Double

/-! ## Magnitudes -/

/-- The real number `m * 2 ^ e`. -/
noncomputable def dyadic (m : Nat) (e : Int) : ℝ :=
  (m : ℝ) * (2 : ℝ) ^ e

theorem dyadic_pos {m : Nat} (h : 0 < m) (e : Int) : 0 < dyadic m e := by
  unfold dyadic
  positivity

/-- A larger exponent makes a larger number on the grid. -/
theorem dyadic_lt_of_exponent_lt {m m' : Nat} {e e' : Int} (h : OnGrid m e) (h' : OnGrid m' e')
    (he : e < e') : dyadic m e < dyadic m' e' := by
  have hm : (m : ℝ) < 2 ^ 53 := by exact_mod_cast h.lt
  have hm' : (2 : ℝ) ^ 52 ≤ m' := by
    have := h'.full.resolve_right (by have := h.low; omega)
    exact_mod_cast this
  calc (m : ℝ) * 2 ^ e < 2 ^ 53 * 2 ^ e := by
        exact mul_lt_mul_of_pos_right hm (by positivity)
    _ = 2 ^ 52 * (2 : ℝ) ^ (e + 1) := by
        rw [zpow_add_one₀ (by norm_num)]
        ring
    _ ≤ 2 ^ 52 * (2 : ℝ) ^ e' := by
        have := zpow_le_zpow_right₀ (by norm_num : (1 : ℝ) ≤ 2) (show e + 1 ≤ e' by omega)
        linarith
    _ ≤ m' * (2 : ℝ) ^ e' := by
        exact mul_le_mul_of_nonneg_right hm' (by positivity)

/-- Exponents first, mantissas second: the order of the grid. -/
theorem compare_dyadic {m m' : Nat} {e e' : Int} (h : OnGrid m e) (h' : OnGrid m' e') :
    (compare e e').then (compare m m') = compare (dyadic m e) (dyadic m' e') := by
  rcases lt_trichotomy e e' with he | rfl | he
  · rw [compare_lt_iff_lt.mpr he, compare_lt_iff_lt.mpr (dyadic_lt_of_exponent_lt h h' he)]
    rfl
  · have hp : (0 : ℝ) < 2 ^ e := by positivity
    rw [compare_eq_iff_eq.mpr rfl]
    rcases lt_trichotomy m m' with hm | rfl | hm
    · have : dyadic m e < dyadic m' e :=
        mul_lt_mul_of_pos_right (by exact_mod_cast hm) hp
      rw [compare_lt_iff_lt.mpr hm, compare_lt_iff_lt.mpr this]
      rfl
    · rw [compare_eq_iff_eq.mpr rfl, compare_eq_iff_eq.mpr rfl]
      rfl
    · have : dyadic m' e < dyadic m e :=
        mul_lt_mul_of_pos_right (by exact_mod_cast hm) hp
      rw [compare_gt_iff_gt.mpr hm, compare_gt_iff_gt.mpr this]
      rfl
  · rw [compare_gt_iff_gt.mpr he, compare_gt_iff_gt.mpr (dyadic_lt_of_exponent_lt h' h he)]
    rfl

/-- A magnitude has one mantissa and one exponent on the grid. -/
theorem OnGrid.eq_of_dyadic {m m' : Nat} {e e' : Int} (h : OnGrid m e) (h' : OnGrid m' e')
    (hd : dyadic m e = dyadic m' e') : m = m' ∧ e = e' := by
  have hc := compare_dyadic h h'
  rw [compare_eq_iff_eq.mpr hd, Ordering.then_eq_eq] at hc
  exact ⟨compare_eq_iff_eq.mp hc.2, compare_eq_iff_eq.mp hc.1⟩

/-! ## The nearest integer -/

/-- The nearest integer, the even one of two. -/
noncomputable def nearestEven (r : ℝ) : ℤ :=
  if Int.fract r < 1 / 2 then ⌊r⌋
  else if Int.fract r = 1 / 2 then ⌊r⌋ + ⌊r⌋ % 2
  else ⌊r⌋ + 1

theorem nearestEven_bounds (r : ℝ) : ⌊r⌋ ≤ nearestEven r ∧ nearestEven r ≤ ⌊r⌋ + 1 := by
  unfold nearestEven
  split
  · omega
  · split <;> omega

theorem nearestEven_natCast (n : ℕ) : nearestEven n = n := by
  simp [nearestEven]

theorem nearestEven_two_pow (k : ℕ) : nearestEven (2 ^ k) = 2 ^ k := by
  exact_mod_cast nearestEven_natCast (2 ^ k)

theorem nearestEven_mono {r r' : ℝ} (h : r ≤ r') : nearestEven r ≤ nearestEven r' := by
  -- with equal floors the fractions decide, else the floors are apart enough
  rcases (Int.floor_mono h).eq_or_lt with hf | hf
  · have hfr : Int.fract r ≤ Int.fract r' := by
      simp only [Int.fract, hf]
      linarith
    unfold nearestEven
    rw [hf]
    by_cases h₁ : Int.fract r < 1 / 2
    · rw [if_pos h₁]
      split_ifs <;> omega
    · have h₂ : ¬ Int.fract r' < 1 / 2 := by linarith
      rw [if_neg h₁, if_neg h₂]
      by_cases h₃ : Int.fract r' = 1 / 2
      · have h₄ : Int.fract r = 1 / 2 := le_antisymm (hfr.trans_eq h₃) (not_lt.mp h₁)
        rw [if_pos h₃, if_pos h₄]
      · rw [if_neg h₃]
        split_ifs <;> omega
  · have := (nearestEven_bounds r).2
    have := (nearestEven_bounds r').1
    omega

/-! ## The grid around a real -/

/-- The exponent of the power of two whose multiples are the magnitudes of
doubles near a positive real. -/
noncomputable def gridExponent (r : ℝ) : ℤ :=
  max (Int.log 2 r - 52) (-1074)

/-- A positive real rounded to the magnitude of a double, without an upper
limit. -/
noncomputable def rounded (r : ℝ) : ℝ :=
  nearestEven (r / 2 ^ gridExponent r) * 2 ^ gridExponent r

theorem gridExponent_mono {r r' : ℝ} (hr : 0 < r) (h : r ≤ r') :
    gridExponent r ≤ gridExponent r' := by
  have := Int.log_mono_right (b := 2) hr h
  unfold gridExponent
  omega

/-- A real is less than `2 ^ 53` steps of its grid. -/
theorem div_gridExponent_lt (r : ℝ) : r / 2 ^ gridExponent r < 2 ^ 53 := by
  have hp : (0 : ℝ) < 2 ^ gridExponent r := by positivity
  rw [div_lt_iff₀ hp]
  calc r < ((2 : ℕ) : ℝ) ^ (Int.log 2 r + 1) := Int.lt_zpow_succ_log_self (by norm_num) r
    _ ≤ (2 : ℝ) ^ (53 + gridExponent r) := by
        refine zpow_le_zpow_right₀ (by norm_num) ?_
        unfold gridExponent
        omega
    _ = 2 ^ 53 * 2 ^ gridExponent r := by
        rw [zpow_add₀ (by norm_num)]
        norm_cast

/-- Above the least exponent a real is at least `2 ^ 52` steps of its grid. -/
theorem le_div_gridExponent {r : ℝ} (hr : 0 < r) (h : gridExponent r ≠ -1074) :
    2 ^ 52 ≤ r / 2 ^ gridExponent r := by
  have hp : (0 : ℝ) < 2 ^ gridExponent r := by positivity
  have hg : 52 + gridExponent r = Int.log 2 r := by
    unfold gridExponent at h ⊢
    omega
  rw [le_div_iff₀ hp]
  calc (2 : ℝ) ^ 52 * 2 ^ gridExponent r = 2 ^ (52 + gridExponent r) := by
        rw [zpow_add₀ (by norm_num)]
        norm_cast
    _ ≤ r := by
        rw [hg]
        exact Int.zpow_log_le_self (by norm_num) hr

theorem nearestEven_grid_le (r : ℝ) : nearestEven (r / 2 ^ gridExponent r) ≤ 2 ^ 53 := by
  have h := nearestEven_mono (div_gridExponent_lt r).le
  rwa [nearestEven_two_pow] at h

theorem le_nearestEven_grid {r : ℝ} (hr : 0 < r) (h : gridExponent r ≠ -1074) :
    2 ^ 52 ≤ nearestEven (r / 2 ^ gridExponent r) := by
  have h := nearestEven_mono (le_div_gridExponent hr h)
  rwa [nearestEven_two_pow] at h

/-- Rounding keeps the order of reals. -/
theorem rounded_mono {r r' : ℝ} (hr : 0 < r) (h : r ≤ r') : rounded r ≤ rounded r' := by
  have hp : (0 : ℝ) < 2 ^ gridExponent r := by positivity
  unfold rounded
  rcases (gridExponent_mono hr h).eq_or_lt with hg | hg
  · rw [← hg]
    have := nearestEven_mono (div_le_div_of_nonneg_right h hp.le)
    exact mul_le_mul_of_nonneg_right (by exact_mod_cast this) hp.le
  · -- a finer grid ends at `2 ^ 53` of its steps, where a coarser one has begun
    have hlow : (-1074 : ℤ) ≤ gridExponent r := le_max_right _ _
    have hle : ((nearestEven (r / 2 ^ gridExponent r) : ℤ) : ℝ) ≤ 2 ^ 53 := by
      exact_mod_cast nearestEven_grid_le r
    have hge : (2 : ℝ) ^ 52 ≤ (nearestEven (r' / 2 ^ gridExponent r') : ℤ) := by
      exact_mod_cast le_nearestEven_grid (hr.trans_le h) (by omega)
    calc (nearestEven (r / 2 ^ gridExponent r) : ℝ) * 2 ^ gridExponent r
        ≤ 2 ^ 53 * 2 ^ gridExponent r := mul_le_mul_of_nonneg_right hle hp.le
      _ = 2 ^ 52 * (2 : ℝ) ^ (gridExponent r + 1) := by
          rw [zpow_add_one₀ (by norm_num)]
          ring
      _ ≤ 2 ^ 52 * (2 : ℝ) ^ gridExponent r' := by
          have := zpow_le_zpow_right₀ (by norm_num : (1 : ℝ) ≤ 2)
            (show gridExponent r + 1 ≤ gridExponent r' by omega)
          linarith
      _ ≤ nearestEven (r' / 2 ^ gridExponent r') * 2 ^ gridExponent r' :=
          mul_le_mul_of_nonneg_right hge (by positivity)

theorem log_dyadic {m : Nat} (h : 0 < m) (e : Int) : Int.log 2 (dyadic m e) = m.log2 + e := by
  have hl : 2 ^ m.log2 ≤ m := Nat.log2_self_le (by omega)
  have hr : m < 2 ^ (m.log2 + 1) := Nat.lt_log2_self
  have hp : (0 : ℝ) < 2 ^ e := by positivity
  have hd := dyadic_pos h e
  have hlow : (m.log2 : ℤ) + e ≤ Int.log 2 (dyadic m e) := by
    rw [← Int.zpow_le_iff_le_log (by norm_num) hd, Nat.cast_ofNat, zpow_add₀ (by norm_num)]
    exact mul_le_mul_of_nonneg_right (by exact_mod_cast hl) hp.le
  have hhigh : Int.log 2 (dyadic m e) < m.log2 + 1 + e := by
    rw [← Int.lt_zpow_iff_log_lt (by norm_num) hd, Nat.cast_ofNat, zpow_add₀ (by norm_num)]
    exact mul_lt_mul_of_pos_right (by exact_mod_cast hr) hp
  omega

/-- The grid around a point of the grid is its own. -/
theorem gridExponent_dyadic {m : Nat} {e : Int} (h : 0 < m) (hg : OnGrid m e) :
    gridExponent (dyadic m e) = e := by
  have hlow := hg.low
  have hlt : m.log2 < 53 := (Nat.log2_lt (by omega)).mpr hg.lt
  have hfull : 52 ≤ m.log2 ∨ e = -1074 := hg.full.imp_left (Nat.le_log2 (by omega)).mpr
  rw [gridExponent, log_dyadic h]
  omega

/-- Rounding leaves the magnitude of a double alone. -/
theorem rounded_dyadic {m : Nat} {e : Int} (h : 0 < m) (hg : OnGrid m e) :
    rounded (dyadic m e) = dyadic m e := by
  have hp : (2 : ℝ) ^ e ≠ 0 := by positivity
  rw [rounded, gridExponent_dyadic h hg, dyadic, mul_div_cancel_right₀ _ hp,
    nearestEven_natCast, Int.cast_natCast]

end VirtualMarket.Double
