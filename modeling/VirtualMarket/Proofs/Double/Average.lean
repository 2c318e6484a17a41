/-
VirtualMarket.Proofs.Double.Average — weighted averages of two positive doubles.

An average weighs one double with `a` and the other with `1 - a`.  It cannot
overflow: the largest double times a weight is rounded down, and the two weights
miss one by less than the largest double can bear.  It can underflow, in a single
case: both doubles are the least one and neither weight is above a half, so that
both products are rounded to zero.
-/
import VirtualMarket.Proofs.Double.Error

namespace VirtualMarket.Double

open Float.Model
open Float.Model.UnpackedFloat

variable {x y a w : Float}

/-! ## The ends of the doubles -/

/-- A positive double is the least one or at least twice as large. -/
theorem Positive.eq_least_or_le (h : Positive x) : x = least ∨ 2 ^ (-1073 : ℤ) ≤ real x := by
  obtain ⟨m, e, hm, hv⟩ := h
  have hg := (onGrid_of_view hv).1
  have htwo : (2 : ℝ) ^ (-1073 : ℤ) = 2 * 2 ^ (-1074 : ℤ) := by
    rw [show (-1073 : ℤ) = -1074 + 1 from rfl, zpow_add_one₀ two_ne_zero, mul_comm]
  have hstep : (2 : ℝ) ^ (-1074 : ℤ) ≤ 2 ^ e := zpow_le_zpow_right₀ (by norm_num) hg.low
  rw [real_of_view hv, htwo, dyadic]
  rcases Nat.lt_or_ge 1 m with h2 | h1
  · refine .inr (mul_le_mul (by exact_mod_cast h2) hstep (by positivity) (by positivity))
  · obtain rfl : m = 1 := by omega
    obtain rfl : e = -1074 := hg.full.resolve_left (by omega)
    exact .inl (eq_of_view hv)

theorem Positive.least_le_real (h : Positive x) : 2 ^ (-1074 : ℤ) ≤ real x := by
  rcases h.eq_least_or_le with rfl | h
  · exact real_least.ge
  · exact (zpow_le_zpow_right₀ (by norm_num) (by norm_num)).trans h

/-- The largest double times a power of two keeps all its bits. -/
theorem rounded_largest_mul_two_pow {e : Int} (he : -1126 ≤ e) :
    rounded (dyadic (2 ^ 53 - 1) 971 * dyadic (2 ^ 52) e) =
      dyadic (2 ^ 53 - 1) 971 * dyadic (2 ^ 52) e := by
  have hpow : dyadic (2 ^ 52) e = 2 ^ (52 + e) := by
    rw [dyadic, zpow_add₀ two_ne_zero]
    norm_cast
  have hd : dyadic (2 ^ 53 - 1) 971 * dyadic (2 ^ 52) e
      = dyadic (2 ^ 53 - 1) (971 + (52 + e)) := by
    rw [hpow, dyadic, dyadic, mul_assoc, ← zpow_add₀ two_ne_zero]
  rw [hd, rounded_dyadic (by norm_num) ⟨by norm_num, by omega, .inl (by norm_num)⟩]

/-- The largest double times one of 53 bits, other than a power of two, is rounded
down: it is `n` steps of its grid less a fraction of more than a half. -/
theorem rounded_largest_mul_le {n : Nat} {e : Int} (hgt : 2 ^ 52 < n) (hlt : n < 2 ^ 53)
    (he : -1126 ≤ e) :
    rounded (dyadic (2 ^ 53 - 1) 971 * dyadic n e) ≤ dyadic (2 ^ 53 - 1) 971 * dyadic n e := by
  set r := dyadic (2 ^ 53 - 1) 971 * dyadic n e with hr
  have hd : r = dyadic ((2 ^ 53 - 1) * n) (971 + e) := by rw [hr, dyadic_mul]
  have hlog : ((2 ^ 53 - 1) * n).log2 = 105 :=
    (Nat.log2_eq_iff (by omega)).mpr ⟨by omega, by omega⟩
  have hgrid : gridExponent r = 971 + e + 53 := by
    rw [hd, gridExponent, log_dyadic (by omega), hlog]
    omega
  have hp : (0 : ℝ) < 2 ^ (971 + e) := by positivity
  have hsteps : r / 2 ^ gridExponent r = n - n / 2 ^ 53 := by
    rw [hgrid, hd, dyadic, zpow_add₀ two_ne_zero (971 + e) 53, mul_comm,
      mul_div_mul_left _ _ hp.ne']
    push_cast
    field_simp
    norm_num
  have hgt' : (2 : ℝ) ^ 52 < n := by exact_mod_cast hgt
  have hlt' : (n : ℝ) < 2 ^ 53 := by exact_mod_cast hlt
  have hnear : nearestEven (r / 2 ^ gridExponent r) ≤ (n - 1 : ℤ) := by
    refine nearestEven_le_of_lt ?_
    rw [hsteps]
    push_cast
    linarith
  have hdown : (nearestEven (r / 2 ^ gridExponent r) : ℝ) ≤ r / 2 ^ gridExponent r := by
    have hcast : (nearestEven (r / 2 ^ gridExponent r) : ℝ) ≤ n - 1 := by exact_mod_cast hnear
    rw [hsteps] at hcast ⊢
    linarith
  calc rounded r ≤ r / 2 ^ gridExponent r * 2 ^ gridExponent r :=
        mul_le_mul_of_nonneg_right hdown (by positivity)
    _ = r := div_mul_cancel₀ _ (by positivity)

/-- A mantissa of up to 53 bits can be widened to 53. -/
theorem exists_wide_dyadic {m : Nat} (h : 0 < m) (hlt : m < 2 ^ 53) (e : Int) :
    ∃ n k, 2 ^ 52 ≤ n ∧ n < 2 ^ 53 ∧ e - 52 ≤ k ∧ dyadic n k = dyadic m e := by
  have hlog : m.log2 < 53 := (Nat.log2_lt (by omega)).mpr hlt
  refine ⟨m <<< (52 - m.log2), e - (52 - m.log2 : ℕ), ?_, ?_, by omega, dyadic_shiftLeft ..⟩
  · calc 2 ^ 52 = 2 ^ m.log2 * 2 ^ (52 - m.log2) := by rw [← pow_add]; congr 1; omega
      _ ≤ m * 2 ^ (52 - m.log2) := Nat.mul_le_mul_right _ (Nat.log2_self_le (by omega))
      _ = m <<< (52 - m.log2) := (Nat.shiftLeft_eq ..).symm
  · calc m <<< (52 - m.log2) = m * 2 ^ (52 - m.log2) := Nat.shiftLeft_eq ..
      _ < 2 ^ (m.log2 + 1) * 2 ^ (52 - m.log2) :=
          Nat.mul_lt_mul_of_pos_right Nat.lt_log2_self (by positivity)
      _ = 2 ^ 53 := by rw [← pow_add]; congr 1; omega

/-- The largest double times any other is rounded down. -/
theorem Positive.rounded_largest_mul (hw : Positive w) :
    rounded (real Decimal.largestFinite * real w) ≤ real Decimal.largestFinite * real w := by
  obtain ⟨m, e, hm, hv⟩ := hw
  have hg := (onGrid_of_view hv).1
  obtain ⟨n, k, hn, hlt, hk, hd⟩ := exists_wide_dyadic hm hg.lt e
  have hlow := hg.low
  rw [real_largestFinite, real_of_view hv, ← hd]
  rcases hn.eq_or_lt with rfl | hgt
  · exact (rounded_largest_mul_two_pow (by omega)).le
  · exact rounded_largest_mul_le hgt hlt (by omega)

/-! ## Weights -/

theorem positive_half : Positive 0.5 :=
  ⟨_, _, _, rfl⟩

theorem real_half : real 0.5 = 1 / 2 := by
  rw [real_of_view (m := 2 ^ 52) (e := -53) (h := by omega) rfl, dyadic]
  norm_num

theorem one_sub_of_zero {s : Sign} (ha : view a = .zero s) : 1 - a = 1 := by
  rw [sub_eq_ofView, ha]
  rfl

/-- The weight that is left over, and how far the two weights miss one. -/
theorem Positive.one_sub (ha : Positive a) (h : real a < 1) :
    Positive (1 - a) ∧ real (1 - a) = rounded (1 - real a) ∧
      |real (1 - a) - (1 - real a)| ≤ 2 ^ (-54 : ℤ) := by
  have hpos := ha.real_pos
  obtain ⟨u, hu, hs, hr, hlow⟩ := positive_one.sub_rounds ha (h.trans_eq real_one.symm)
  rw [real_one] at hr hlow
  obtain ⟨hw, hreal⟩ := Within.of_rounds (b := 0) hr hs le_rfl (by norm_num) hlow
    (by rw [zpow_zero]; linarith)
  rw [← hu] at hw hreal
  refine ⟨hw.positive, hreal, ?_⟩
  have hlog : Int.log 2 (1 - real a) < 0 := by
    rw [← Int.lt_zpow_iff_log_lt (by norm_num) (by linarith), zpow_zero]
    linarith
  have hgrid : gridExponent (1 - real a) ≤ -53 := by
    unfold gridExponent
    omega
  rw [hreal]
  calc |rounded (1 - real a) - (1 - real a)| ≤ 2 ^ gridExponent (1 - real a) / 2 :=
        abs_rounded_sub_le _
    _ ≤ (2 : ℝ) ^ (-53 : ℤ) / 2 := by
        gcongr
        norm_num
    _ = 2 ^ (-54 : ℤ) := by
        rw [show (-53 : ℤ) = -54 + 1 from rfl, zpow_add_one₀ two_ne_zero,
          mul_div_cancel_right₀ _ two_ne_zero]

/-- A weighed double that does not underflow is at most the weighed largest one. -/
theorem Positive.mul_weight (hx : Positive x) (hw : Positive w) (h1 : real w ≤ 1)
    (h : 2 ^ (-1075 : ℤ) < real x * real w) :
    Positive (x * w) ∧ real (x * w) ≤ real Decimal.largestFinite * real w := by
  have hle : real x * real w ≤ real Decimal.largestFinite * real w :=
    mul_le_mul_of_nonneg_right hx.real_le_largestFinite hw.real_pos.le
  obtain ⟨u, hu, hs, hr⟩ := hx.mul_rounds hw
  have hmax : real Decimal.largestFinite * real w ≤ real Decimal.largestFinite :=
    mul_le_of_le_one_right positive_largestFinite.real_pos.le h1
  obtain ⟨hp, hreal⟩ := positive_of_rounds hr hs h
    ((hle.trans hmax).trans_lt (lt_add_of_pos_right _ (by positivity)))
  rw [hu, hreal]
  exact ⟨hp, (rounded_mono (mul_pos hx.real_pos hw.real_pos) hle).trans hw.rounded_largest_mul⟩

theorem Positive.mul_weight_eq_zero (hx : Positive x) (hw : Positive w)
    (h : real x * real w ≤ 2 ^ (-1075 : ℤ)) : x * w = 0 := by
  obtain ⟨u, hu, hs, hr⟩ := hx.mul_rounds hw
  rw [hu]
  exact zero_of_rounds hr hs (mul_pos hx.real_pos hw.real_pos) h

/-- Only a weight of a half or less makes a positive double underflow. -/
theorem Positive.weight_le_half (hx : Positive x) (h : real x * real w ≤ 2 ^ (-1075 : ℤ)) :
    real w ≤ 1 / 2 := by
  obtain ⟨t, ht⟩ : ∃ t : ℝ, (2 : ℝ) ^ (-1075 : ℤ) = t := ⟨_, rfl⟩
  have hpos : 0 < t := ht ▸ by positivity
  have hleast : 2 * t ≤ real x := by
    rw [← ht, mul_comm, ← zpow_add_one₀ two_ne_zero]
    exact hx.least_le_real
  rw [ht] at h
  nlinarith

/-- A weight of more than a quarter makes only the least double underflow. -/
theorem Positive.eq_least_of_underflow (hx : Positive x) (hw : 1 / 4 < real w)
    (h : real x * real w ≤ 2 ^ (-1075 : ℤ)) : x = least := by
  obtain ⟨t, ht⟩ : ∃ t : ℝ, (2 : ℝ) ^ (-1075 : ℤ) = t := ⟨_, rfl⟩
  have hpos : 0 < t := ht ▸ by positivity
  refine hx.eq_least_or_le.resolve_right fun htwice => ?_
  have hfour : 4 * t ≤ real x := by
    refine le_of_eq_of_le ?_ htwice
    rw [← ht, show (-1073 : ℤ) = -1075 + 1 + 1 from rfl, zpow_add_one₀ two_ne_zero,
      zpow_add_one₀ two_ne_zero]
    ring
  rw [ht] at h
  nlinarith

/-- The least double underflows with a weight of a half or less. -/
theorem least_underflows (h : real w ≤ 1 / 2) : real least * real w ≤ 2 ^ (-1075 : ℤ) := by
  calc real least * real w ≤ 2 ^ (-1074 : ℤ) * (1 / 2) := by
        rw [real_least]
        exact mul_le_mul_of_nonneg_left h (by positivity)
    _ = 2 ^ (-1075 : ℤ) := by
        rw [show (-1074 : ℤ) = -1075 + 1 from rfl, zpow_add_one₀ two_ne_zero]
        ring

/-! ## Averages -/

/-- The average of `x` and `y` in which `y` weighs `a`. -/
def average (x y a : Float) : Float :=
  x * (1 - a) + y * a

/-- Both doubles are the least one, and neither weighs more than a half. -/
def AverageUnderflows (x y a : Float) : Prop :=
  x = least ∧ y = least ∧ 1 - a ≤ 0.5 ∧ a ≤ 0.5

/-- With no weight on `y` the average is `x`. -/
theorem average_of_zero (hx : Positive x) (hy : Positive y) {s : Sign} (ha : view a = .zero s) :
    average x y a = x := by
  obtain ⟨m, e, hm, hvy⟩ := hy
  have hzero : view (y * a) = .zero (.positive * s) := by
    rw [mul_eq_ofView, hvy, ha]
    exact view_ofView_zero _
  rw [average, one_sub_of_zero ha, hx.mul_one, add_eq_ofView, hzero]
  obtain ⟨m, e, hm, hvx⟩ := hx
  rw [hvx]
  exact (congrArg ofView hvx.symm).trans (ofView_view x)

/-- With all weight on `y` the average is `y`. -/
theorem average_of_one (hx : Positive x) (hy : Positive y) : average x y 1 = y := by
  obtain ⟨m, e, hm, hvx⟩ := hx
  have hzero : x * (1 - 1) = 0 := by
    rw [mul_eq_ofView, hvx]
    rfl
  rw [average, hzero, hy.mul_one, hy.zero_add]

/-- Two weighed doubles do not overflow when they are added. -/
theorem Positive.add_weighed (hx : Positive x) (hy : Positive y) (ha : Positive a)
    (h1 : real a < 1) (hxw : real x ≤ real Decimal.largestFinite * real (1 - a))
    (hyw : real y ≤ real Decimal.largestFinite * real a) : Positive (x + y) := by
  obtain ⟨u, hu, hs, hr⟩ := hx.add_rounds hy
  rw [hu]
  refine (positive_of_rounds hr hs ?_ ?_).1
  · have hstep : (2 : ℝ) ^ (-1075 : ℤ) < 2 ^ (-1074 : ℤ) :=
      zpow_lt_zpow_right₀ (by norm_num) (by norm_num)
    linarith only [hstep, hx.least_le_real, hy.real_pos]
  · obtain ⟨-, -, herr⟩ := ha.one_sub h1
    have hsum : real (1 - a) + real a ≤ 1 + 2 ^ (-54 : ℤ) := by
      linarith only [(abs_le.mp herr).2]
    have hslack : real Decimal.largestFinite * 2 ^ (-54 : ℤ) < 2 ^ (970 : ℤ) := by
      rw [real_largestFinite, dyadic, mul_assoc, ← zpow_add₀ two_ne_zero]
      rw [show (970 : ℤ) = 53 + (971 + -54) from rfl, zpow_add₀ two_ne_zero 53]
      gcongr
      norm_num
    have := mul_le_mul_of_nonneg_left hsum positive_largestFinite.real_pos.le
    linarith only [this, hslack, hxw, hyw]

/-- Between the ends an average underflows only if both of its terms do. -/
theorem positive_average_iff_of_lt (hx : Positive x) (hy : Positive y) (ha : Positive a)
    (h1 : real a < 1) :
    Positive (average x y a) ↔
      2 ^ (-1075 : ℤ) < real x * real (1 - a) ∨ 2 ^ (-1075 : ℤ) < real y * real a := by
  obtain ⟨hb, hreal, -⟩ := ha.one_sub h1
  have hb1 : real (1 - a) ≤ 1 := by
    have := rounded_le_two_zpow (a := 0) (r := 1 - real a) (by norm_num) (by linarith)
      (by rw [zpow_zero]; linarith [ha.real_pos])
    rwa [zpow_zero, ← hreal] at this
  rcases lt_or_ge (2 ^ (-1075 : ℤ)) (real x * real (1 - a)) with hxw | hxw <;>
    rcases lt_or_ge (2 ^ (-1075 : ℤ)) (real y * real a) with hyw | hyw
  · obtain ⟨hp, hle⟩ := hx.mul_weight hb hb1 hxw
    obtain ⟨hq, hle'⟩ := hy.mul_weight ha h1.le hyw
    exact iff_of_true (hp.add_weighed hq ha h1 hle hle') (.inl hxw)
  · obtain ⟨hp, -⟩ := hx.mul_weight hb hb1 hxw
    rw [average, hy.mul_weight_eq_zero ha hyw, hp.add_zero]
    exact iff_of_true hp (.inl hxw)
  · obtain ⟨hq, -⟩ := hy.mul_weight ha h1.le hyw
    rw [average, hx.mul_weight_eq_zero hb hxw, hq.zero_add]
    exact iff_of_true hq (.inr hyw)
  · rw [average, hx.mul_weight_eq_zero hb hxw, hy.mul_weight_eq_zero ha hyw]
    refine iff_of_false ?_ (not_or.mpr ⟨hxw.not_gt, hyw.not_gt⟩)
    exact fun h => view_ne_zero (positive_iff.mp h).1 .positive rfl

/-- Both terms of an average underflow only if both doubles are the least one: two
weights of a half or less are both more than a quarter. -/
theorem terms_underflow_iff (hx : Positive x) (hy : Positive y) (ha : Positive a)
    (h1 : real a < 1) :
    (real x * real (1 - a) ≤ 2 ^ (-1075 : ℤ) ∧ real y * real a ≤ 2 ^ (-1075 : ℤ)) ↔
      AverageUnderflows x y a := by
  obtain ⟨hb, -, herr⟩ := ha.one_sub h1
  have hmiss : (2 : ℝ) ^ (-54 : ℤ) < 1 / 4 := by norm_num
  have hlow : 3 / 4 < real (1 - a) + real a := by
    have hlt := herr.trans_lt hmiss
    linarith [(abs_lt.mp hlt).1]
  rw [AverageUnderflows, hb.le_iff positive_half, ha.le_iff positive_half, real_half]
  constructor
  · rintro ⟨hxw, hyw⟩
    have hbl := hx.weight_le_half hxw
    have hal := hy.weight_le_half hyw
    exact ⟨hx.eq_least_of_underflow (by linarith) hxw, hy.eq_least_of_underflow (by linarith) hyw,
      hbl, hal⟩
  · rintro ⟨rfl, rfl, hbl, hal⟩
    exact ⟨least_underflows hbl, least_underflows hal⟩

/-- An average of positive doubles is a positive double, but for the one case in
which it underflows. -/
theorem positive_average_iff (hx : Positive x) (hy : Positive y) (h0 : 0 ≤ a) (h1 : a ≤ 1) :
    Positive (average x y a) ↔ ¬ AverageUnderflows x y a := by
  rcases nonneg_cases h0 with hv | ⟨s, hv⟩ | ha
  · have htop := (le_iff.mp h1).2.2
    rw [positive_one.value_eq, value, hv] at htop
    exact absurd htop (not_le.mpr (EReal.coe_lt_top _))
  · rw [average_of_zero hx hy hv, AverageUnderflows, one_sub_of_zero hv]
    exact iff_of_true hx fun h => absurd h.2.2.1 (by decide +kernel)
  · have hle := (ha.le_iff positive_one).mp h1
    rw [real_one] at hle
    rcases hle.eq_or_lt with heq | hlt
    · obtain rfl : a = 1 := positive_one.eq_of_beq (beq_iff.mpr ⟨ha.unsigned.isNaN, rfl, by
        rw [ha.value_eq, positive_one.value_eq, heq, real_one]⟩)
      rw [average_of_one hx hy]
      exact iff_of_true hy fun h => absurd h.2.2.2 (by decide +kernel)
    · rw [positive_average_iff_of_lt hx hy ha hlt, ← terms_underflow_iff hx hy ha hlt, not_and_or,
        not_le, not_le]

end VirtualMarket.Double
