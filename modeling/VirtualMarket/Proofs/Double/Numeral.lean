/-
VirtualMarket.Proofs.Double.Numeral — doubles for numerals.

A numeral is a natural number times a power of ten.  Short ones are converted by
one exact multiplication or division, all others on the parts, and either way the
result is the real number rounded.  The bits of a double are read in two ways, by
the model and by `magnitude`, and both give the same mantissa and exponent.
-/
import VirtualMarket.Proofs.Double.Product

namespace VirtualMarket.Double

open Float.Model
open Float.Model.UnpackedFloat

variable {x : Float}

/-! ## The exact view -/

/-- The fields of a double, read off its bits as a number. -/
theorem toNat_fields (w : UInt64) :
    (@unpackMantissa .binary64 w.toBitVec).toNat = (w &&& 0xFFFFFFFFFFFFF).toNat ∧
      (@unpackExponent .binary64 w.toBitVec).toNat = ((w >>> 52) &&& 0x7FF).toNat ∧
      (@unpackSign .binary64 w.toBitVec).toNat = (w >>> 63).toNat := by
  have hw : w.toBitVec.toNat = w.toNat := rfl
  have hlt : w.toNat < 2 ^ 64 := w.toNat_lt
  refine ⟨?_, ?_, ?_⟩
  · change (BitVec.extractLsb 51 0 w.toBitVec).toNat = _
    rw [BitVec.extractLsb_toNat, UInt64.toNat_and, hw]
    exact (Nat.and_two_pow_sub_one_eq_mod _ 52).symm
  · change (BitVec.extractLsb 62 52 w.toBitVec).toNat = _
    rw [BitVec.extractLsb_toNat, UInt64.toNat_and, UInt64.toNat_shiftRight, hw]
    exact (Nat.and_two_pow_sub_one_eq_mod _ 11).symm
  · change (BitVec.extractLsb 63 63 w.toBitVec).toNat = _
    rw [BitVec.extractLsb_toNat, UInt64.toNat_shiftRight, hw]
    change w.toNat >>> 63 % 2 = w.toNat >>> 63
    rw [Nat.shiftRight_eq_div_pow]
    omega

theorem magnitude_of_view {s : Sign} {m : Nat} {e : Int} {h : 0 < m}
    (hv : view x = .finite s m e h) : Decimal.magnitude x = ⟨m, e⟩ := by
  change UnpackedFloat.unpack .binary64 x.toBits.toBitVec = _ at hv
  obtain ⟨hm, hx, -⟩ := toNat_fields x.toBits
  have hb : (Format.binary64.exponentBias : Int) + Format.binary64.mantissaBitsWithoutImplicit
      = 1075 := rfl
  simp only [UnpackedFloat.unpack, hb] at hv
  simp only [Decimal.magnitude, ← hm, ← hx, beq_iff_eq]
  split at hv
  · split at hv <;> cases hv
  · split at hv
    · rename_i hzero
      split at hv
      · cases hv
      · cases hv
        rw [hzero]
        rfl
    · rename_i hpos
      cases hv
      have h0 : (@unpackExponent .binary64 x.toBits.toBitVec).toNat ≠ 0 :=
        fun h0 => hpos (BitVec.eq_of_toNat_eq h0)
      rw [if_neg h0, toNat_one_append]
      rfl

/-- The sign bit is the sign, but for a NaN. -/
theorem isNegative_iff (h : x.isNaN = false) :
    Decimal.isNegative x = true ↔ sign? (view x) = some .negative := by
  have hs : Decimal.isNegative x = true ↔
      Sign.ofBitVec (@unpackSign .binary64 x.toBits.toBitVec) = .negative := by
    obtain ⟨-, -, hs⟩ := toNat_fields x.toBits
    have hlt := (@unpackSign .binary64 x.toBits.toBitVec).isLt
    rw [Decimal.isNegative, beq_iff_eq, ← UInt64.toNat_inj, ← hs, Sign.ofBitVec]
    split
    · rename_i h0
      simp [h0]
    · rename_i h0
      have h0 : (@unpackSign .binary64 x.toBits.toBitVec).toNat ≠ 0 :=
        fun hn => h0 (BitVec.eq_of_toNat_eq hn)
      exact iff_of_true (show _ = 1 by omega) rfl
  have hv := isNaN_eq_false_iff.mp h
  change UnpackedFloat.unpack .binary64 x.toBits.toBitVec ≠ _ at hv
  change _ ↔ sign? (UnpackedFloat.unpack .binary64 x.toBits.toBitVec) = _
  rw [hs]
  simp only [UnpackedFloat.unpack] at hv ⊢
  split
  · split
    · simp
    · rename_i h1 h2
      simp [h1, h2] at hv
  · split
    · split <;> simp
    · simp

/-- A double is its magnitude with its sign. -/
theorem signed_abs (h : x.isNaN = false) :
    (if Decimal.isNegative x = true then -x.abs else x.abs) = x := by
  refine eq_of_view ?_
  by_cases hneg : Decimal.isNegative x = true
  · rw [if_pos hneg, view_neg, view_abs]
    have hs := (isNegative_iff h).mp hneg
    cases hv : view x <;> rw [hv] at hs <;> cases hs <;> rfl
  · rw [if_neg hneg, view_abs]
    rw [isNegative_iff h] at hneg
    cases hv : view x with
    | notANumber => rfl
    | infinity s | zero s | finite s m e hm =>
      cases s with
      | positive => rfl
      | negative => exact absurd (by rw [hv]; rfl) hneg

/-! ## Exact reals -/

/-- A real of at most 53 bits above the least exponent is not changed by rounding. -/
theorem rounded_dyadic_of_lt {m : Nat} {e : Int} (h : 0 < m) (hlt : m < 2 ^ 53) (he : -1074 ≤ e) :
    rounded (dyadic m e) = dyadic m e := by
  have hlog : m.log2 < 53 := (Nat.log2_lt (by omega)).mpr hlt
  set g := gridExponent (dyadic m e) with hg
  have hge : g ≤ e := by
    rw [hg, gridExponent, log_dyadic h]
    omega
  -- the real is a whole number of steps of its grid
  have hsteps : dyadic m e / 2 ^ g = (m * 2 ^ (e - g).toNat : ℕ) := by
    have hn : ((e - g).toNat : ℤ) = e - g := by omega
    rw [dyadic, Nat.cast_mul, Nat.cast_pow, Nat.cast_ofNat, ← zpow_natCast, hn,
      zpow_sub₀ two_ne_zero, mul_div_assoc]
  rw [rounded, ← hg, hsteps, nearestEven_natCast, Int.cast_natCast, ← hsteps,
    div_mul_cancel₀ _ (by positivity)]

theorem dyadic_zero_right (m : Nat) : dyadic m 0 = m := by
  rw [dyadic, zpow_zero, mul_one]

/-! ## Natural numbers -/

/-- A natural number rounded is a double from one on. -/
theorem within_round {n k : Nat} (h : 0 < n) (hn : n ≤ 2 ^ k) (hk : k ≤ 1023) :
    Within 0 k (ofView (UnpackedFloat.round .binary64 .positive n 0)) ∧
      real (ofView (UnpackedFloat.round .binary64 .positive n 0)) = rounded n := by
  have hr := rounds_round .positive h 0
  rw [dyadic_zero_right] at hr
  refine Within.of_rounds hr (sign?_roundWithAccuracy ..) (by norm_num) (by omega) ?_ ?_
  · rw [zpow_zero]
    exact_mod_cast h
  · rw [zpow_natCast]
    exact_mod_cast hn

theorem toFloat_eq_ofView {n : Nat} (h : 0 < n) (hlt : n < 2 ^ 64) :
    n.toUInt64.toFloat = ofView (UnpackedFloat.round .binary64 .positive n 0) := by
  have hn : n.toUInt64.toNat = n := Nat.mod_eq_of_lt hlt
  change ofView (UnpackedFloat.normalize .binary64 (n.toUInt64.toNat : Int) 0 .positive) = _
  rw [hn, UnpackedFloat.normalize, compare_gt_iff_gt.mpr (Int.natCast_pos.mpr h)]
  rfl

/-- A number of at most 53 bits is converted as it is. -/
theorem real_toFloat {n : Nat} (h : 0 < n) (hlt : n < 2 ^ 53) :
    Positive n.toUInt64.toFloat ∧ real n.toUInt64.toFloat = n := by
  obtain ⟨hw, hreal⟩ := within_round h hlt.le (by norm_num)
  have hexact := rounded_dyadic_of_lt h hlt (e := 0) (by norm_num)
  rw [dyadic_zero_right] at hexact
  rw [toFloat_eq_ofView h (by omega)]
  exact ⟨hw.positive, hreal.trans hexact⟩

/-! ## Powers of ten -/

theorem toBits_powerOfTen : ∀ k : Fin 23, Float.exactlyRepresentablePowersOfTen[k].toBits =
    (ofView (UnpackedFloat.round .binary64 .positive (10 ^ k.val) 0)).toBits := by
  decide +kernel

theorem eq_of_toBits {x y : Float} (h : x.toBits = y.toBits) : x = y := by
  rw [← x.ofBits_toBits, h, y.ofBits_toBits]

/-- The powers of ten that are doubles: of five they have at most 53 bits. -/
theorem real_powerOfTen (k : Fin 23) :
    Positive Float.exactlyRepresentablePowersOfTen[k] ∧
      real Float.exactlyRepresentablePowersOfTen[k] = 10 ^ k.val := by
  have hk : k.val ≤ 22 := Nat.le_of_lt_succ k.isLt
  have hle : 10 ^ k.val ≤ 2 ^ 74 := (Nat.pow_le_pow_right (by norm_num) hk).trans (by norm_num)
  have hlt : 5 ^ k.val < 2 ^ 53 :=
    lt_of_le_of_lt (Nat.pow_le_pow_right (by norm_num) hk) (by norm_num)
  have hpow : ((10 ^ k.val : ℕ) : ℝ) = dyadic (5 ^ k.val) k.val := by
    rw [dyadic, zpow_natCast]
    push_cast
    rw [← mul_pow]
    norm_num
  have hexact : rounded (10 ^ k.val : ℕ) = 10 ^ k.val := by
    rw [hpow, rounded_dyadic_of_lt (by positivity) hlt (by omega), ← hpow]
    norm_cast
  obtain ⟨hw, hreal⟩ := within_round (n := 10 ^ k.val) (by positivity) hle (by norm_num)
  rw [eq_of_toBits (toBits_powerOfTen k)]
  exact ⟨hw.positive, hreal.trans hexact⟩

/-! ## Numerals -/

/-- The parts of a numeral, unless its exponent is out of all bounds. -/
theorem rounds_unpacked {n : Nat} (h : 0 < n) {e : ℤ} (hlow : -(2 ^ 11 + n.log2 : ℤ) ≤ e)
    (hhigh : e ≤ 2 ^ 11) :
    let u := UnpackedFloat.ofScientific .binary64 n e
    sign? u = some .positive ∧ Rounds ((n : ℝ) * 10 ^ e) u := by
  intro u
  have hmax : (2 ^ Format.binary64.exponentBits : ℤ) = 2 ^ 11 := rfl
  have hu : u = UnpackedFloat.ofScientific .binary64 n e := rfl
  rw [UnpackedFloat.ofScientific, dif_neg (by omega), hmax, if_neg (by omega),
    if_neg (by omega)] at hu
  split at hu
  · -- the number is widened first, so that the product has bits enough
    have hn : dyadic (n <<< 53) (-53) = n := by
      rw [← dyadic_zero_right, ← dyadic_shiftLeft n 53 0]
      rfl
    have hpow : dyadic (10 ^ e.toNat) 0 = 10 ^ e := by
      have he : (e.toNat : ℤ) = e := by omega
      rw [dyadic_zero_right, ← he, zpow_natCast]
      norm_cast
    have hwide : 2 ^ 52 ≤ n <<< 53 := by
      rw [Nat.shiftLeft_eq]
      omega
    have hten : 0 < 10 ^ e.toNat := by positivity
    have hr : Rounds (dyadic (n <<< 53) (-53) * dyadic (10 ^ e.toNat) 0)
        (UnpackedFloat.mul .binary64 (.finite .positive (n <<< 53) (-53) (by omega))
          (.finite .positive (10 ^ e.toNat) 0 hten)) :=
      rounds_mul _ hten _ _ (exponent_le_gridExponent_mul hwide hten)
    rw [hn, hpow] at hr
    rw [hu]
    exact ⟨sign?_roundWithAccuracy .., hr⟩
  · have hpow : dyadic (10 ^ (-e).toNat) 0 = (10 ^ e)⁻¹ := by
      have he : ((-e).toNat : ℤ) = -e := by omega
      rw [dyadic_zero_right, ← zpow_neg, ← he, zpow_natCast]
      norm_cast
    have hten : 0 < 10 ^ (-e).toNat := by positivity
    have hr : Rounds (dyadic n 0 / dyadic (10 ^ (-e).toNat) 0) (UnpackedFloat.div .binary64
        (.finite .positive n 0 h) (.finite .positive (10 ^ (-e).toNat) 0 hten)) :=
      rounds_div h hten _ _
    rw [hpow, div_inv_eq_mul, dyadic_zero_right] at hr
    rw [hu]
    exact ⟨sign?_roundWithAccuracy .., hr⟩

/-- The exponent of a numeral from its sign and its size. -/
def signedExponent (negative : Bool) (e : Nat) : ℤ :=
  if negative then -e else e

theorem signedExponent_natAbs (e : ℤ) : signedExponent (decide (e < 0)) e.natAbs = e := by
  rw [signedExponent]
  by_cases h : e < 0
  · rw [if_pos (decide_eq_true h)]
    omega
  · rw [if_neg (by simpa using h)]
    omega

/-- A numeral that is not beyond all doubles is converted to its real number,
rounded. -/
theorem rounds_ofScientific {n : Nat} (h : 0 < n) (negative : Bool) {e : Nat}
    (he : e ≤ if negative then 2 ^ 11 + n.log2 else 2 ^ 11) :
    ∃ u, Float.ofScientific n negative e = ofView u ∧ sign? u = some .positive ∧
      Rounds ((n : ℝ) * 10 ^ signedExponent negative e) u := by
  unfold Float.ofScientific
  split
  · rename_i hfast
    obtain ⟨hpos, hreal⟩ := real_toFloat h hfast.1
    obtain ⟨hpos', hreal'⟩ := real_powerOfTen ⟨e, Nat.lt_succ_of_le hfast.2⟩
    cases negative with
    | true =>
      obtain ⟨u, hu, hs, hr⟩ := hpos.div_rounds hpos'
      rw [hreal, hreal'] at hr
      refine ⟨u, hu, hs, ?_⟩
      rwa [signedExponent, if_pos rfl, zpow_neg, zpow_natCast, ← div_eq_mul_inv]
    | false =>
      obtain ⟨u, hu, hs, hr⟩ := hpos.mul_rounds hpos'
      rw [hreal, hreal'] at hr
      refine ⟨u, hu, hs, ?_⟩
      rwa [signedExponent, if_neg (by decide), zpow_natCast]
  · cases negative with
    | true =>
      obtain ⟨hs, hr⟩ := rounds_unpacked h (e := -e) (by rw [if_pos rfl] at he; omega) (by omega)
      refine ⟨UnpackedFloat.ofScientific .binary64 n (-e), ?_, hs, hr⟩
      have hneg : Int.negOfNat e = -(e : ℤ) := Int.negOfNat_eq
      rw [← hneg]
      rfl
    | false =>
      rw [if_neg (by decide)] at he
      obtain ⟨hs, hr⟩ := rounds_unpacked h (e := e) (by omega) (by omega)
      exact ⟨_, rfl, hs, hr⟩

theorem ofNat_zero : Float.ofNat 0 = 0 := rfl

/-- The double for a natural number is the number, rounded. -/
theorem rounds_ofNat {n : Nat} (h : 0 < n) :
    ∃ u, Float.ofNat n = ofView u ∧ sign? u = some .positive ∧ Rounds (n : ℝ) u := by
  obtain ⟨u, hu, hs, hr⟩ := rounds_ofScientific h false (e := 0) (Nat.zero_le _)
  rw [signedExponent, if_neg (by decide), Nat.cast_zero, zpow_zero, mul_one] at hr
  exact ⟨u, hu, hs, hr⟩

theorem Within.ofNat {n j k : Nat} (hj : 2 ^ j ≤ n) (hn : n ≤ 2 ^ k) (hk : k ≤ 1023) :
    Within j k (Float.ofNat n) := by
  obtain ⟨u, hu, hs, hr⟩ := rounds_ofNat (Nat.lt_of_lt_of_le (by positivity) hj)
  rw [hu]
  refine (Within.of_rounds hr hs (by omega) (by omega) ?_ ?_).1
  · rw [zpow_natCast]
    exact_mod_cast hj
  · rw [zpow_natCast]
    exact_mod_cast hn

/-! ## Rounding to whole numbers -/

/-- A positive double is no more than a half away from the whole number that it is
rounded to. -/
theorem nearestWhole_bounds (h : Positive x) :
    real x - 1 / 2 < (Decimal.magnitude x).nearestWhole ∧
      (Decimal.magnitude x).nearestWhole ≤ real x + 1 / 2 := by
  obtain ⟨m, e, hm, hv⟩ := h
  rw [magnitude_of_view hv, real_of_view hv, Decimal.Magnitude.nearestWhole, dyadic]
  split
  · rename_i he
    have hn : (2 : ℝ) ^ e.toNat = 2 ^ e := by
      rw [← zpow_natCast, Int.toNat_of_nonneg he]
    have hw : ((m * 2 ^ e.toNat : ℕ) : ℝ) = m * 2 ^ e := by
      push_cast
      rw [hn]
    change _ < ((m * 2 ^ e.toNat : ℕ) : ℝ) ∧ ((m * 2 ^ e.toNat : ℕ) : ℝ) ≤ _
    rw [hw]
    constructor <;> linarith
  · rename_i he
    replace he : ¬ 0 ≤ e := he
    set unit := 2 ^ (-e).toNat with hunit
    have hpos : (0 : ℝ) < unit := by
      rw [hunit]
      positivity
    have hreal : (m : ℝ) * 2 ^ e = m / unit := by
      have hn : ((-e).toNat : ℤ) = -e := by omega
      rw [hunit, Nat.cast_pow, Nat.cast_ofNat, ← zpow_natCast, hn, zpow_neg, div_inv_eq_mul]
    set whole := (2 * m + unit) / (2 * unit) with hwhole
    have hle : whole * (2 * unit) ≤ 2 * m + unit := Nat.div_mul_le_self _ _
    have hlt : 2 * m + unit < (whole + 1) * (2 * unit) :=
      Nat.lt_mul_of_div_lt (Nat.lt_succ_self _) (by positivity)
    have hle' : (whole : ℝ) * (2 * unit) ≤ 2 * m + unit := by exact_mod_cast hle
    have hlt' : 2 * (m : ℝ) + unit < (whole + 1) * (2 * unit) := by exact_mod_cast hlt
    change _ < (whole : ℝ) ∧ (whole : ℝ) ≤ _
    rw [hreal]
    constructor
    · rw [sub_lt_iff_lt_add, div_lt_iff₀ hpos]
      linarith
    · rw [← sub_le_iff_le_add, le_div_iff₀ hpos]
      linarith

theorem roundHalfAway_eq (h : Positive x) :
    Decimal.roundHalfAway x = Float.ofNat (Decimal.magnitude x).nearestWhole := by
  have hneg : Decimal.isNegative x = false := by
    rw [Bool.eq_false_iff, ne_eq, isNegative_iff h.unsigned.isNaN, h.unsigned]
    nofun
  rw [Decimal.roundHalfAway, (positive_iff.mp h).2, if_pos rfl, hneg]
  rfl

/-- A double that is no less than a half is rounded to one at least. -/
theorem Within.roundHalfAway {k : Nat} (h : Within (-1) k x) (hk : k + 1 ≤ 1023) :
    Within 0 (k + 1) (Decimal.roundHalfAway x) := by
  obtain ⟨hgt, hle⟩ := nearestWhole_bounds h.positive
  rw [roundHalfAway_eq h.positive]
  set n := (Decimal.magnitude x).nearestWhole
  have hlow := h.low
  have hhigh := h.high
  rw [zpow_neg_one] at hlow
  rw [zpow_natCast] at hhigh
  have hpos : (0 : ℝ) < n := by linarith
  have hone : (1 : ℝ) ≤ 2 ^ k := one_le_pow₀ (by norm_num)
  have hmax : (n : ℝ) ≤ 2 ^ (k + 1) := by
    rw [pow_succ]
    linarith
  exact Within.ofNat (j := 0) (by exact_mod_cast hpos) (by exact_mod_cast hmax) hk

end VirtualMarket.Double
