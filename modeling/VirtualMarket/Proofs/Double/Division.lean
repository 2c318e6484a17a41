/-
VirtualMarket.Proofs.Double.Division — where a quotient of positive doubles lies.

A quotient of positive doubles is their real quotient, rounded.  A double that
bounds the real quotient bounds the rounded one too, so an estimate about reals
carries over as it is.
-/
import VirtualMarket.Proofs.Double.Rounding

namespace VirtualMarket.Double

open Float.Model
open Float.Model.UnpackedFloat

variable {x y c : Float}

/-! ## Reals behind positive doubles -/

/-- The real number that a finite double is. -/
noncomputable def real (x : Float) : ℝ :=
  (value x).toReal

theorem real_of_view {m : Nat} {e : Int} {h : 0 < m} (hv : view x = .finite .positive m e h) :
    real x = dyadic m e := by
  rw [real, value, hv]
  rfl

theorem Positive.value_eq (h : Positive x) : value x = (real x : ℝ) := by
  obtain ⟨-, h0, ht⟩ := positive_iff_value.mp h
  exact (EReal.coe_toReal ht.ne (bot_lt_of_lt h0).ne').symm

theorem Positive.real_pos (h : Positive x) : 0 < real x := by
  have := (positive_iff_value.mp h).2.1
  rw [h.value_eq] at this
  exact_mod_cast this

theorem Positive.le_iff (hx : Positive x) (hy : Positive y) : x ≤ y ↔ real x ≤ real y := by
  rw [Double.le_iff, hx.value_eq, hy.value_eq, EReal.coe_le_coe_iff]
  exact ⟨fun h => h.2.2, fun h => ⟨hx.unsigned.isNaN, hy.unsigned.isNaN, h⟩⟩

/-! ## Rounded reals and doubles -/

/-- Rounding keeps the order of reals among the doubles, those beyond the range of
doubles included. -/
theorem ofView_le_ofView {r r' : ℝ} {u u' : UnpackedFloat} (hu : Rounds r u)
    (hs : sign? u = some .positive) (hu' : Rounds r' u') (hs' : sign? u' = some .positive)
    (hr : 0 < r) (h : r ≤ r') : ofView u ≤ ofView u' := by
  have hnan := (unsigned_ofView hs).isNaN
  have hnan' := (unsigned_ofView hs').isNaN
  have hmono := rounded_mono hr h
  cases hu with
  | zero s h0 =>
    cases hs
    exact (unsigned_ofView hs').nonneg
  | @finite s m e hm hg hd =>
    cases hs
    cases hu' with
    | zero s' h0' =>
      have := dyadic_pos hm e
      linarith
    | @finite s' m' e' hm' hg' hd' =>
      cases hs'
      rw [← hd, ← hd'] at hmono
      by_cases he' : e' ≤ 971
      · have he : e ≤ e' :=
          not_lt.mp fun hlt => not_le.mpr (dyadic_lt_of_exponent_lt hg' hg hlt) hmono
        refine Double.le_iff.mpr ⟨hnan, hnan', ?_⟩
        rw [value, value, view_ofView_finite _ hm hg (he.trans he'),
          view_ofView_finite _ hm' hg' he', valueOf, valueOf, EReal.coe_le_coe_iff]
        exact hmono
      · exact le_infinity hnan (view_ofView_overflow _ hm' (by omega))

/-- A positive double rounds its own real number. -/
theorem Positive.rounds (hc : Positive c) : Rounds (real c) (view c) := by
  obtain ⟨m, e, hm, hv⟩ := hc
  have hg := (onGrid_of_view hv).1
  rw [hv, real_of_view hv]
  exact .finite .positive hm hg (rounded_dyadic hm hg).symm

/-- A positive double below a real is below what the real is rounded to. -/
theorem Positive.le_ofView (hc : Positive c) {r : ℝ} {u : UnpackedFloat} (hu : Rounds r u)
    (hs : sign? u = some .positive) (h : real c ≤ r) : c ≤ ofView u := by
  have hle := ofView_le_ofView hc.rounds hc.unsigned hu hs hc.real_pos h
  rwa [ofView_view] at hle

/-- A positive double above a real is above what the real is rounded to. -/
theorem Positive.ofView_le (hc : Positive c) {r : ℝ} {u : UnpackedFloat} (hu : Rounds r u)
    (hs : sign? u = some .positive) (hr : 0 < r) (h : r ≤ real c) : ofView u ≤ c := by
  have hle := ofView_le_ofView hu hs hc.rounds hc.unsigned hr h
  rwa [ofView_view] at hle

/-- Parts that round the real number of a positive double are its own. -/
theorem Positive.eq_view {u : UnpackedFloat} (hc : Positive c) (hu : Rounds (real c) u)
    (hs : sign? u = some .positive) : u = view c := by
  obtain ⟨m, e, hm, hv⟩ := hc
  have hg := (onGrid_of_view hv).1
  have hr : rounded (real c) = dyadic m e := by
    rw [real_of_view hv, rounded_dyadic hm hg]
  cases hu with
  | zero s h0 => exact absurd (h0.symm.trans hr) (dyadic_pos hm e).ne
  | finite s hm' hg' hd =>
    cases hs
    obtain ⟨rfl, rfl⟩ := hg'.eq_of_dyadic hg (hd.trans hr)
    exact hv.symm

/-- What equals a positive double is that double. -/
theorem Positive.eq_of_beq {x : Float} (hc : Positive c) (h : (x == c) = true) : x = c := by
  have hpos := (positive_iff_value.mp hc).2.1
  rw [← (beq_iff.mp h).2.2] at hpos
  exact Double.eq_of_beq h fun h0 => hpos.ne' (beq_iff.mp h0).2.2

/-! ## Quotients -/

/-- The residual bits of a fraction: on which side of a half it is, and whether
it is neither zero nor a half. -/
theorem bits_of_fraction (q n : Nat) {d : Nat} (hd : 0 < d) :
    let em := ExtendedMantissa.ofMantissaAndAccuracy q (accuracyOfFraction n d)
    em.mantissa = q ∧ (em.roundBit = true ↔ d ≤ 2 * n) ∧
      (em.stickyBit = true ↔ n ≠ 0 ∧ 2 * n ≠ d) := by
  unfold accuracyOfFraction
  by_cases h0 : n = 0
  · rw [if_pos h0]
    simp [ExtendedMantissa.ofMantissaAndAccuracy]
    omega
  · rw [if_neg h0]
    rcases lt_trichotomy (2 * n) d with h | h | h
    · rw [compare_lt_iff_lt.mpr h]
      simp [ExtendedMantissa.ofMantissaAndAccuracy]
      omega
    · rw [compare_eq_iff_eq.mpr h]
      simp [ExtendedMantissa.ofMantissaAndAccuracy]
      omega
    · rw [compare_gt_iff_gt.mpr h]
      simp [ExtendedMantissa.ofMantissaAndAccuracy]
      omega

/-- A quotient of mantissas with the accuracy of its remainder stands for the
real quotient. -/
theorem represents_quotient (m : Nat) {d : Nat} (hd : 0 < d) :
    Represents (.ofMantissaAndAccuracy (m / d) (accuracyOfFraction (m % d) d)) ((m : ℝ) / d) := by
  have hp : (0 : ℝ) < d := by exact_mod_cast hd
  have hfr : Int.fract ((m : ℝ) / d) = (m % d : ℕ) / d := Int.fract_div_natCast_eq_div_natCast_mod
  obtain ⟨hm, hr, hs⟩ := bits_of_fraction (m / d) (m % d) hd
  constructor
  · rw [hm, Int.floor_div_natCast, Int.floor_natCast]
    rfl
  · rw [hr, hfr, div_le_div_iff₀ two_pos hp, one_mul, mul_comm _ (2 : ℝ)]
    norm_cast
  · rw [hs, hfr, Ne, Ne, Ne, Ne, div_eq_zero_iff, or_iff_left hp.ne', Nat.cast_eq_zero,
      div_eq_div_iff hp.ne' two_ne_zero, one_mul, mul_comm _ (2 : ℝ)]
    norm_cast

/-- The exponent a quotient is computed at is not above that of the grid around
the real quotient. -/
theorem exponent_le_gridExponent {m m' : Nat} (h : 0 < m) (h' : 0 < m') (e e' : Int) :
    Format.binary64.targetExponent (totalExponent m e - totalExponent m' e') ≤
      gridExponent (dyadic m e / dyadic m' e') := by
  have hd := dyadic_pos h e
  have hd' := dyadic_pos h' e'
  have hlog : m.log2 + e - (m'.log2 + e') - 1 ≤ Int.log 2 (dyadic m e / dyadic m' e') := by
    have hl := Int.zpow_log_le_self (b := 2) (by norm_num) hd
    have hr := (Int.lt_zpow_succ_log_self (b := 2) (by norm_num) (dyadic m' e')).le
    rw [log_dyadic h, Nat.cast_ofNat] at hl
    rw [log_dyadic h', Nat.cast_ofNat] at hr
    rw [← Int.zpow_le_iff_le_log (by norm_num) (div_pos hd hd'), Nat.cast_ofNat,
      le_div_iff₀ hd']
    calc (2 : ℝ) ^ (m.log2 + e - (m'.log2 + e') - 1) * dyadic m' e'
        ≤ 2 ^ (m.log2 + e - (m'.log2 + e') - 1) * 2 ^ (m'.log2 + e' + 1) :=
          mul_le_mul_of_nonneg_left hr (by positivity)
      _ = 2 ^ (m.log2 + e) := by
          rw [← zpow_add₀ (by norm_num)]
          congr 1
          omega
      _ ≤ dyadic m e := hl
  have hb : ((Format.binary64.mantissaBits : Nat) : Int) = 53 := rfl
  have hm : Format.binary64.minExponent = -1074 := by decide
  rw [Format.targetExponent, totalExponent, totalExponent, hb, hm, gridExponent]
  omega

/-- Division of parts rounds the real quotient. -/
theorem rounds_div {m m' : Nat} {e e' : Int} (h : 0 < m) (h' : 0 < m') (s s' : Sign) :
    Rounds (dyadic m e / dyadic m' e')
      (UnpackedFloat.div .binary64 (.finite s m e h) (.finite s' m' e' h')) := by
  set t := min (e - e') (Format.binary64.targetExponent (totalExponent m e - totalExponent m' e'))
    with ht
  -- the mantissa is widened until its quotient has all the bits of the grid
  have hq : dyadic m e / dyadic m' e' / 2 ^ t = ((m <<< (e - e' - t).toNat : ℕ) : ℝ) / m' := by
    have hp : (m' : ℝ) ≠ 0 := by positivity
    have hn : ((e - e' - t).toNat : ℤ) = e - e' - t := by omega
    rw [Nat.shiftLeft_eq, dyadic, dyadic]
    push_cast
    rw [← zpow_natCast, hn, zpow_sub₀ two_ne_zero, zpow_sub₀ two_ne_zero]
    field_simp
  have hr := represents_quotient (m <<< (e - e' - t).toNat) h'
  rw [← hq] at hr
  exact rounds_roundWithAccuracy _ (div_pos (dyadic_pos h e) (dyadic_pos h' e')) hr
    ((min_le_right _ _).trans (exponent_le_gridExponent h h' e e'))

theorem Positive.div_rounds (hx : Positive x) (hy : Positive y) :
    ∃ u, x / y = ofView u ∧ sign? u = some .positive ∧ Rounds (real x / real y) u := by
  obtain ⟨m, e, hm, hvx⟩ := hx
  obtain ⟨m', e', hm', hvy⟩ := hy
  refine ⟨_, div_eq_ofView, ?_, ?_⟩
  · rw [hvx, hvy]
    exact sign?_roundWithAccuracy ..
  · rw [hvx, hvy, real_of_view hvx, real_of_view hvy]
    exact rounds_div hm hm' _ _

/-- A double below the real quotient is below the quotient. -/
theorem Positive.le_div (hc : Positive c) (hx : Positive x) (hy : Positive y)
    (h : real c ≤ real x / real y) : c ≤ x / y := by
  obtain ⟨u, hu, hs, hr⟩ := hx.div_rounds hy
  rw [hu]
  exact hc.le_ofView hr hs h

/-- A double above the real quotient is above the quotient. -/
theorem Positive.div_le (hc : Positive c) (hx : Positive x) (hy : Positive y)
    (h : real x / real y ≤ real c) : x / y ≤ c := by
  obtain ⟨u, hu, hs, hr⟩ := hx.div_rounds hy
  rw [hu]
  exact hc.ofView_le hr hs (div_pos hx.real_pos hy.real_pos) h

theorem positive_one : Positive 1 :=
  ⟨_, _, _, rfl⟩

theorem real_one : real 1 = 1 := by
  rw [real_of_view (m := 2 ^ 52) (e := -52) (h := by omega) rfl, dyadic]
  norm_num

/-- A positive double over itself is one, to the last bit. -/
theorem Positive.div_self (h : Positive x) : x / x = 1 := by
  obtain ⟨u, hu, hs, hr⟩ := h.div_rounds h
  rw [(div_eq_one_iff_eq h.real_pos.ne').mpr rfl, ← real_one] at hr
  rw [hu, positive_one.eq_view hr hs, ofView_view]

/-! ## Halves -/

/-- The least positive double. -/
def least : Float :=
  .ofBits 1

theorem positive_least : Positive least :=
  ⟨_, _, _, rfl⟩

theorem real_least : real least = 2 ^ (-1074 : ℤ) := by
  rw [real_of_view (m := 1) (e := -1074) (h := Nat.one_pos) rfl, dyadic, Nat.cast_one, one_mul]

theorem positive_two : Positive 2 :=
  ⟨_, _, _, rfl⟩

theorem real_two : real 2 = 2 := by
  rw [real_of_view (m := 2 ^ 52) (e := -51) (h := by omega) rfl, dyadic]
  norm_num

/-- Only the least positive double has no half. -/
theorem Positive.half (h : Positive x) (hx : 2 ^ (-1073 : ℤ) ≤ real x) : Positive (x / 2) := by
  have hl : real least = 2 ^ (-1073 : ℤ) / 2 := by
    rw [real_least, show (-1073 : ℤ) = -1074 + 1 from rfl, zpow_add_one₀ two_ne_zero]
    ring
  refine positive_least.of_between h ?_ ?_
  · refine positive_least.le_div h positive_two ?_
    rw [real_two]
    linarith
  · refine h.div_le h positive_two ?_
    have := h.real_pos
    rw [real_two]
    linarith

end VirtualMarket.Double
