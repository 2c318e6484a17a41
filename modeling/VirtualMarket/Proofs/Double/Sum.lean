/-
VirtualMarket.Proofs.Double.Sum — sums of doubles that are not negative.

A sum is formed at the smaller of the two exponents, where nothing is lost, and
then rounded.  Rounding being monotone, a sum of doubles that are not negative is
no less than either of them.  It is no NaN, and neither is a difference, as long
as one of the operands is finite.
-/
import VirtualMarket.Decimal.Binary64
import VirtualMarket.Proofs.Double.Division

namespace VirtualMarket.Double

open Float.Model
open Float.Model.UnpackedFloat

variable {x y : Float}

/-! ## Rounding a mantissa -/

/-- A whole number stands for itself, with no bits behind it. -/
theorem represents_natCast (m : Nat) : Represents (.ofMantissaAndAccuracy m .exact) (m : ℝ) := by
  constructor <;> simp [ExtendedMantissa.ofMantissaAndAccuracy]

/-- A mantissa that is widened as its exponent is lowered keeps its magnitude. -/
theorem dyadic_shiftLeft (m n : Nat) (e : Int) : dyadic (m <<< n) (e - n) = dyadic m e := by
  rw [dyadic, dyadic, Nat.shiftLeft_eq, zpow_sub₀ two_ne_zero, zpow_natCast]
  push_cast
  field_simp

/-- Every magnitude is one at a smaller exponent, too. -/
theorem dyadic_align (m : Nat) {e t : Int} (h : t ≤ e) :
    dyadic (m <<< (e - t).toNat) t = dyadic m e := by
  rw [← dyadic_shiftLeft m (e - t).toNat e, show e - (e - t).toNat = t by omega]

/-- Rounding parts of any width rounds their magnitude. -/
theorem rounds_round (s : Sign) {m : Nat} (h : 0 < m) (e : Int) :
    Rounds (dyadic m e) (UnpackedFloat.round .binary64 s m e) := by
  set t := Format.binary64.targetExponent (totalExponent m e) with ht
  set n := (e - t).toNat with hn
  have hgrid : gridExponent (dyadic m e) = t := by
    rw [ht, targetExponent_binary64, gridExponent, log_dyadic h]
  have hw : dyadic m e / 2 ^ (e - n) = (m <<< n : ℕ) := by
    rw [← dyadic_shiftLeft m n e, dyadic, mul_div_cancel_right₀ _ (by positivity)]
  have hr := represents_natCast (m <<< n)
  rw [← hw] at hr
  exact rounds_roundWithAccuracy s (dyadic_pos h e) hr (by omega)

/-! ## Sums of positive doubles -/

/-- Addition of positive parts rounds the real sum, and keeps the sign. -/
theorem rounds_add {m m' : Nat} (h : 0 < m) (h' : 0 < m') (e e' : Int) :
    let u := UnpackedFloat.add .binary64 (.finite .positive m e h) (.finite .positive m' e' h')
    Rounds (dyadic m e + dyadic m' e') u ∧ sign? u = some .positive := by
  intro u
  set t := min e e' with ht
  set k := m <<< (e - t).toNat + m' <<< (e' - t).toNat with hk
  have hpos : 0 < k := by
    refine Nat.add_pos_left ?_ _
    rw [Nat.shiftLeft_eq]
    positivity
  have hu : u = UnpackedFloat.round .binary64 .positive k t := by
    change UnpackedFloat.normalize .binary64 (k : Int) t .positive = _
    rw [UnpackedFloat.normalize, compare_gt_iff_gt.mpr (Int.natCast_pos.mpr hpos)]
    rfl
  -- at the smaller exponent the mantissas add up exactly
  have hsum : dyadic m e + dyadic m' e' = dyadic k t := by
    rw [← dyadic_align m (min_le_left e e'), ← dyadic_align m' (min_le_right e e'), ← ht, dyadic,
      dyadic, dyadic, hk]
    push_cast
    ring
  rw [hu, hsum]
  exact ⟨rounds_round .positive hpos t, sign?_roundWithAccuracy ..⟩

theorem add_eq_ofView : x + y = ofView (UnpackedFloat.add .binary64 (view x) (view y)) := rfl

theorem sub_eq_ofView : x - y = ofView (UnpackedFloat.sub .binary64 (view x) (view y)) := rfl

protected theorem add_comm (x y : Float) : x + y = y + x := by
  rw [add_eq_ofView, add_eq_ofView]
  congr 1
  cases view x with
  | finite s m e h =>
    cases view y with
    | finite s' m' e' h' =>
      simp only [UnpackedFloat.add]
      rw [min_comm, Int.add_comm]
    | _ => rfl
  | infinity s =>
    cases view y with
    | infinity s' => cases s <;> cases s' <;> rfl
    | _ => rfl
  | zero s =>
    cases view y with
    | zero s' => cases s <;> cases s' <;> rfl
    | _ => rfl
  | notANumber => cases view y <;> rfl

/-- A positive double does not get smaller by what is added to it. -/
theorem Positive.le_add (hx : Positive x) (hy : 0 ≤ y) : x ≤ x + y := by
  have hnan := hx.unsigned.isNaN
  obtain ⟨m, e, hm, hvx⟩ := hx
  rw [add_eq_ofView, hvx]
  rcases nonneg_cases hy with hv | ⟨s, hv⟩ | ⟨m', e', hm', hv⟩ <;> rw [hv]
  · exact le_infinity hnan (view_ofView_infinity .positive)
  · change x ≤ ofView (.finite .positive m e hm)
    rw [← hvx, ofView_view]
    exact Double.le_refl hnan
  · obtain ⟨hr, hs⟩ := rounds_add hm hm' e e'
    refine Positive.le_ofView ⟨m, e, hm, hvx⟩ hr hs ?_
    rw [real_of_view hvx]
    have := dyadic_pos hm' e'
    linarith

/-! ## NaN and no NaN -/

theorem isNaN_iff {x : Float} : x.isNaN = true ↔ view x = .notANumber := by
  change (view x).isNaN = true ↔ _
  cases view x <;> simp [UnpackedFloat.isNaN]

theorem isNaN_add_right (x : Float) {y : Float} (h : y.isNaN = true) : (x + y).isNaN = true := by
  rw [isNaN_iff] at h ⊢
  rw [add_eq_ofView, h]
  cases view x <;> exact view_ofView_notANumber

theorem isNaN_mul_right (x : Float) {y : Float} (h : y.isNaN = true) : (x * y).isNaN = true := by
  rw [isNaN_iff] at h ⊢
  rw [mul_eq_ofView, h]
  cases view x <;> exact view_ofView_notANumber

theorem isNaN_ofView {u : UnpackedFloat} (h : sign? u ≠ none) : (ofView u).isNaN = false := by
  rw [isNaN_eq_false_iff]
  intro hv
  rw [← sign?_view_ofView, hv] at h
  exact h rfl

theorem sign?_normalize (k : Int) (e : Int) (s : Sign) :
    sign? (UnpackedFloat.normalize .binary64 k e s) ≠ none := by
  unfold UnpackedFloat.normalize
  split <;> simp [UnpackedFloat.round]

/-- Only a NaN makes a NaN of a difference from a finite double. -/
theorem Positive.isNaN_sub (hx : Positive x) (hy : y.isNaN = false) : (x - y).isNaN = false := by
  obtain ⟨m, e, hm, hvx⟩ := hx
  rw [sub_eq_ofView, hvx]
  refine isNaN_ofView ?_
  cases hv : view y with
  | notANumber => exact absurd hv (isNaN_eq_false_iff.mp hy)
  | finite s m' e' hm' => exact sign?_normalize _ _ _
  | infinity s | zero s => simp [UnpackedFloat.sub]

/-- Only a NaN makes a NaN of a product with a finite double that is not zero. -/
theorem Positive.isNaN_mul (hx : Positive x) (hy : y.isNaN = false) : (x * y).isNaN = false := by
  obtain ⟨m, e, hm, hvx⟩ := hx
  rw [mul_eq_ofView, hvx]
  refine isNaN_ofView ?_
  cases hv : view y with
  | notANumber => exact absurd hv (isNaN_eq_false_iff.mp hy)
  | finite s m' e' hm' | infinity s | zero s => simp [UnpackedFloat.mul]

/-- A positive factor keeps a double from getting negative. -/
theorem Positive.mul_nonneg (hx : Positive x) (hy : 0 ≤ y) : 0 ≤ x * y := by
  rcases nonneg_cases hy with hv | ⟨s, hv⟩ | hy
  · exact (hx.mul_unsigned (by rw [Unsigned, hv]; rfl)).nonneg
  · obtain ⟨m, e, hm, hvx⟩ := hx
    rw [mul_eq_ofView, hvx, hv]
    refine Double.le_iff.mpr ⟨rfl, isNaN_ofView (by simp [UnpackedFloat.mul]), ?_⟩
    rw [value_zero, value]
    simp [UnpackedFloat.mul, valueOf]
  · exact (hx.mul_unsigned hy.unsigned).nonneg

/-! ## Sums that overflow -/

theorem positive_largestFinite : Positive Decimal.largestFinite :=
  ⟨_, _, _, rfl⟩

theorem real_largestFinite : real Decimal.largestFinite = dyadic (2 ^ 53 - 1) 971 :=
  real_of_view (h := by omega) rfl

theorem Positive.real_le_largestFinite (h : Positive x) :
    real x ≤ real Decimal.largestFinite := by
  obtain ⟨m, e, hm, hv⟩ := h
  obtain ⟨hg, he⟩ := onGrid_of_view hv
  have hlt := hg.lt
  rw [real_largestFinite, real_of_view hv, dyadic, dyadic]
  gcongr
  · omega
  · norm_num

/-- Above the largest finite double there is only infinity. -/
theorem view_of_largestFinite_lt (h : Decimal.largestFinite < x) :
    view x = .infinity .positive := by
  have hl := positive_largestFinite
  have hpos : 0 < x := Double.lt_of_lt_of_le (positive_iff.mp hl).1 (Double.le_of_lt h)
  refine (pos_cases hpos).resolve_right fun hx => ?_
  have hle := (hx.le_iff hl).mpr hx.real_le_largestFinite
  exact Double.lt_irrefl (Double.lt_of_lt_of_le h hle)

/-- A finite sum has no operand beyond the largest finite double. -/
theorem Positive.not_largestFinite_lt (h : Positive (x + y)) : ¬ Decimal.largestFinite < y := by
  intro hy
  obtain ⟨m, e, hm, hv⟩ := h
  rw [add_eq_ofView, view_of_largestFinite_lt hy] at hv
  cases hx : view x with
  | notANumber => simp [hx, UnpackedFloat.add, view_ofView_notANumber] at hv
  | infinity s => cases s <;> simp [hx, UnpackedFloat.add, view_ofView_notANumber] at hv
  | zero s | finite s => simp [hx, UnpackedFloat.add] at hv

end VirtualMarket.Double
