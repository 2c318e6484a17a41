/-
VirtualMarket.Proofs.Double.Sign — what signs alone tell about a result.

A product or a quotient that came out positive and finite had finite operands
of one sign: no rounding analysis is needed for that, since rounding keeps the
sign and makes neither an infinity nor a zero finite and non-zero.  In the
other direction a result of operands without a minus sign has none either, as
long as no NaN can arise.
-/
import VirtualMarket.Proofs.Double.Order

namespace VirtualMarket.Double

open Float.Model
open Float.Model.UnpackedFloat

variable {x y : Float}

/-! ## Predicates -/

/-- Finite and greater than zero. -/
def Positive (x : Float) : Prop :=
  ∃ m e h, view x = .finite .positive m e h

/-- No NaN, and without a minus sign; a positive zero and positive infinity
count. -/
def Unsigned (x : Float) : Prop :=
  sign? (view x) = some .positive

theorem Positive.unsigned (h : Positive x) : Unsigned x := by
  obtain ⟨m, e, hm, hv⟩ := h
  rw [Unsigned, hv]
  rfl

theorem Unsigned.isNaN (h : Unsigned x) : x.isNaN = false := by
  rw [isNaN_eq_false_iff]
  intro hv
  rw [Unsigned, hv] at h
  cases h

theorem positive_iff_value : Positive x ↔ x.isNaN = false ∧ 0 < value x ∧ value x < ⊤ := by
  constructor
  · rintro ⟨m, e, h, hv⟩
    refine ⟨isNaN_eq_false_iff.mpr (by rw [hv]; simp), ?_⟩
    rw [value, hv]
    exact ⟨EReal.coe_pos.mpr (dyadic_pos h e), EReal.coe_lt_top _⟩
  · rintro ⟨hn, h0, ht⟩
    rw [value] at h0 ht
    cases hv : view x with
    | notANumber => exact absurd hv (isNaN_eq_false_iff.mp hn)
    | infinity s => cases s <;> simp [hv, valueOf] at h0 ht
    | zero s => simp [hv, valueOf] at h0
    | finite s m e h =>
      cases s with
      | positive => exact ⟨m, e, h, hv⟩
      | negative =>
        have := dyadic_pos h e
        simp only [hv, valueOf, EReal.coe_pos] at h0
        linarith

theorem value_zero : value 0 = 0 := rfl

/-- The test for a positive finite double. -/
theorem positive_iff : Positive x ↔ 0 < x ∧ x.isFinite = true := by
  have hf : x.isFinite = true ↔ (view x).isFinite = true := Iff.rfl
  rw [lt_iff, value_zero, hf]
  constructor
  · intro h
    obtain ⟨hn, h0, -⟩ := positive_iff_value.mp h
    obtain ⟨m, e, hm, hv⟩ := h
    exact ⟨⟨rfl, hn, h0⟩, by rw [hv]; rfl⟩
  · rintro ⟨⟨-, hn, h0⟩, hfin⟩
    refine positive_iff_value.mpr ⟨hn, h0, ?_⟩
    rw [value]
    cases hv : view x with
    | notANumber => exact absurd hv (isNaN_eq_false_iff.mp hn)
    | infinity s => simp [hv, UnpackedFloat.isFinite] at hfin
    | zero s => simp [valueOf]
    | finite s m e h => cases s <;> exact EReal.coe_lt_top _

theorem Positive.beq_zero (h : Positive x) : (x == 0) = false := by
  rw [Bool.eq_false_iff]
  exact Double.not_beq_of_lt (.inr (positive_iff.mp h).1)

/-- What lies between positive finite doubles is positive and finite. -/
theorem Positive.of_between {low high : Float} (hl : Positive low) (hh : Positive high)
    (h : low ≤ x) (h' : x ≤ high) : Positive x := by
  obtain ⟨-, hx, hlx⟩ := le_iff.mp h
  obtain ⟨-, -, hxh⟩ := le_iff.mp h'
  exact positive_iff_value.mpr ⟨hx, (positive_iff_value.mp hl).2.1.trans_le hlx,
    hxh.trans_lt (positive_iff_value.mp hh).2.2⟩

/-- What is not negative is infinite, zero, or positive and finite. -/
theorem nonneg_cases (h : 0 ≤ x) :
    view x = .infinity .positive ∨ (∃ s, view x = .zero s) ∨ Positive x := by
  obtain ⟨-, hn, h0⟩ := le_iff.mp h
  rw [value_zero, value] at h0
  cases hv : view x with
  | notANumber => exact absurd hv (isNaN_eq_false_iff.mp hn)
  | infinity s =>
    cases s with
    | positive => exact .inl rfl
    | negative => simp [hv, valueOf] at h0
  | zero s => exact .inr (.inl ⟨s, rfl⟩)
  | finite s m e hm =>
    cases s with
    | positive => exact .inr (.inr ⟨m, e, hm, hv⟩)
    | negative =>
      have := dyadic_pos hm e
      simp only [hv, valueOf, EReal.coe_nonneg] at h0
      linarith

/-- What is above zero is infinite, or positive and finite. -/
theorem pos_cases (h : 0 < x) : view x = .infinity .positive ∨ Positive x := by
  rcases nonneg_cases (Double.le_of_lt h) with hv | ⟨s, hv⟩ | hp
  · exact .inl hv
  · have h0 := (lt_iff.mp h).2.2
    rw [value_zero, value, hv] at h0
    exact absurd h0 (lt_irrefl _)
  · exact .inr hp

/-- Without a minus sign a double is not negative. -/
theorem Unsigned.nonneg (h : Unsigned x) : 0 ≤ x := by
  refine le_iff.mpr ⟨rfl, h.isNaN, ?_⟩
  rw [value_zero, value]
  rw [Unsigned] at h
  cases hv : view x with
  | notANumber => simp [hv] at h
  | zero s => exact le_rfl
  | infinity s =>
    rw [hv] at h
    cases h
    exact le_top
  | finite s m e hm =>
    rw [hv] at h
    cases h
    exact EReal.coe_nonneg.mpr (dyadic_pos hm e).le

/-! ## Negation -/

/-- Negation changes the sign of the parts alone. -/
theorem view_neg (x : Float) : view (-x) = (view x).neg := by
  change view (ofView (view x).neg) = _
  cases hv : view x with
  | notANumber => rfl
  | infinity s => exact view_ofView_infinity _
  | zero s => exact view_ofView_zero _
  | finite s m e h =>
    obtain ⟨hg, he⟩ := onGrid_of_view hv
    exact view_ofView_finite _ h hg he

theorem eq_of_view {y : Float} (h : view x = view y) : x = y := by
  rw [← ofView_view x, h, ofView_view]

protected theorem neg_neg (x : Float) : - -x = x := by
  refine eq_of_view ?_
  rw [view_neg, view_neg]
  cases view x with
  | infinity s | zero s | finite s => cases s <;> rfl
  | notANumber => rfl

theorem view_abs (x : Float) : view x.abs = (view x).abs := by
  change view (ofView (view x).abs) = _
  cases hv : view x with
  | notANumber => rfl
  | infinity s => exact view_ofView_infinity _
  | zero s => exact view_ofView_zero _
  | finite s m e h =>
    obtain ⟨hg, he⟩ := onGrid_of_view hv
    exact view_ofView_finite _ h hg he

theorem neg_lt_zero (h : 0 < x) : -x < 0 := by
  have hn : (view x).neg ≠ .notANumber := by
    rcases pos_cases h with hv | ⟨m, e, hm, hv⟩ <;> simp [hv, UnpackedFloat.neg]
  refine lt_iff.mpr ⟨isNaN_eq_false_iff.mpr (by rwa [view_neg]), rfl, ?_⟩
  rw [value_zero, value, view_neg]
  rcases pos_cases h with hv | ⟨m, e, hm, hv⟩ <;> rw [hv]
  · exact EReal.bot_lt_zero
  · exact EReal.coe_neg'.mpr (neg_neg_of_pos (dyadic_pos hm e))

/-- The magnitude of the opposite of a positive double is that double. -/
theorem abs_neg_of_pos (h : 0 < x) : (-x).abs = x := by
  change ofView (view (-x)).abs = x
  have hs : (view x).neg.abs = view x := by
    rcases pos_cases h with hv | ⟨m, e, hm, hv⟩ <;> rw [hv] <;> rfl
  rw [view_neg, hs, ofView_view]

/-! ## Signs of rounded results -/

@[simp] theorem sign?_roundWithAccuracy (s : Sign) (m : Nat) (e : Int) (a : Accuracy) :
    sign? (roundWithAccuracy .binary64 s m e a) = some s := by
  unfold roundWithAccuracy
  dsimp only
  split <;> rfl

theorem mul_eq_ofView : x * y = ofView (UnpackedFloat.mul .binary64 (view x) (view y)) := rfl

theorem div_eq_ofView : x / y = ofView (UnpackedFloat.div .binary64 (view x) (view y)) := rfl

theorem sqrt_eq_ofView : x.sqrt = ofView (UnpackedFloat.sqrt .binary64 (view x)) := rfl

theorem sign_eq_of_mul {s s' : Sign} (h : s * s' = .positive) : s' = s := by
  cases s <;> cases s' <;> first | rfl | cases h

theorem sign_eq_of_div {s s' : Sign} (h : s / s' = .positive) : s' = s := by
  cases s <;> cases s' <;> first | rfl | cases h

/-- Packing keeps a plus sign. -/
theorem unsigned_ofView {u : UnpackedFloat} (h : sign? u = some .positive) :
    Unsigned (ofView u) := by
  rw [Unsigned, sign?_view_ofView, h]

/-! ## Operands of a positive result -/

/-- The factors of a positive finite product are finite and of one sign. -/
theorem factors_of_mul_positive (h : Positive (x * y)) :
    ∃ s m e hm m' e' hm', view x = .finite s m e hm ∧ view y = .finite s m' e' hm' := by
  obtain ⟨n, f, hn, hv⟩ := h
  rw [mul_eq_ofView] at hv
  have hs := sign?_view_ofView (UnpackedFloat.mul .binary64 (view x) (view y))
  rw [hv] at hs
  cases hx : view x <;> cases hy : view y <;> rw [hx, hy] at hv hs
  case finite.finite s m e hm s' m' e' hm' =>
    simp only [UnpackedFloat.mul, sign?_roundWithAccuracy, sign?_finite, Option.some.injEq] at hs
    obtain rfl := sign_eq_of_mul hs.symm
    exact ⟨s', m, e, hm, m', e', hm', rfl, rfl⟩
  all_goals simp [UnpackedFloat.mul, view_ofView_notANumber] at hv

/-- The terms of a positive finite quotient are finite and of one sign. -/
theorem terms_of_div_positive (h : Positive (x / y)) :
    ∃ s m e hm m' e' hm', view x = .finite s m e hm ∧ view y = .finite s m' e' hm' := by
  obtain ⟨n, f, hn, hv⟩ := h
  rw [div_eq_ofView] at hv
  have hs := sign?_view_ofView (UnpackedFloat.div .binary64 (view x) (view y))
  rw [hv] at hs
  cases hx : view x <;> cases hy : view y <;> rw [hx, hy] at hv hs
  case finite.finite s m e hm s' m' e' hm' =>
    simp only [UnpackedFloat.div, sign?_roundWithAccuracy, sign?_finite, Option.some.injEq] at hs
    obtain rfl := sign_eq_of_div hs.symm
    exact ⟨s', m, e, hm, m', e', hm', rfl, rfl⟩
  all_goals simp [UnpackedFloat.div, view_ofView_notANumber] at hv

theorem Positive.of_mul_left (hx : Unsigned x) (h : Positive (x * y)) :
    Positive x ∧ Positive y := by
  obtain ⟨s, m, e, hm, m', e', hm', hvx, hvy⟩ := factors_of_mul_positive h
  rw [Unsigned, hvx] at hx
  cases hx
  exact ⟨⟨m, e, hm, hvx⟩, ⟨m', e', hm', hvy⟩⟩

theorem Positive.of_mul_right (hy : Unsigned y) (h : Positive (x * y)) :
    Positive x ∧ Positive y := by
  obtain ⟨s, m, e, hm, m', e', hm', hvx, hvy⟩ := factors_of_mul_positive h
  rw [Unsigned, hvy] at hy
  cases hy
  exact ⟨⟨m, e, hm, hvx⟩, ⟨m', e', hm', hvy⟩⟩

theorem Positive.of_div_left (hx : Unsigned x) (h : Positive (x / y)) : Positive y := by
  obtain ⟨s, m, e, hm, m', e', hm', hvx, hvy⟩ := terms_of_div_positive h
  rw [Unsigned, hvx] at hx
  cases hx
  exact ⟨m', e', hm', hvy⟩

theorem Positive.of_div_right (hy : Unsigned y) (h : Positive (x / y)) : Positive x := by
  obtain ⟨s, m, e, hm, m', e', hm', hvx, hvy⟩ := terms_of_div_positive h
  rw [Unsigned, hvy] at hy
  cases hy
  exact ⟨m, e, hm, hvx⟩

/-! ## Results without a minus sign -/

theorem Positive.mul_unsigned (hx : Positive x) (hy : Unsigned y) : Unsigned (x * y) := by
  obtain ⟨m, e, hm, hvx⟩ := hx
  rw [Unsigned, mul_eq_ofView, sign?_view_ofView, hvx]
  rw [Unsigned] at hy
  cases hvy : view y <;> rw [hvy] at hy <;> cases hy <;>
    simp only [UnpackedFloat.mul, sign?_roundWithAccuracy, sign?_infinity, sign?_zero] <;> rfl

theorem Positive.div_unsigned (hx : Positive x) (hy : Unsigned y) : Unsigned (x / y) := by
  obtain ⟨m, e, hm, hvx⟩ := hx
  rw [Unsigned, div_eq_ofView, sign?_view_ofView, hvx]
  rw [Unsigned] at hy
  cases hvy : view y <;> rw [hvy] at hy <;> cases hy <;>
    simp only [UnpackedFloat.div, sign?_roundWithAccuracy, sign?_infinity, sign?_zero] <;> rfl

theorem Unsigned.div_positive (hx : Unsigned x) (hy : Positive y) : Unsigned (x / y) := by
  obtain ⟨m, e, hm, hvy⟩ := hy
  rw [Unsigned, div_eq_ofView, sign?_view_ofView, hvy]
  rw [Unsigned] at hx
  cases hvx : view x <;> rw [hvx] at hx <;> cases hx <;>
    simp only [UnpackedFloat.div, sign?_roundWithAccuracy, sign?_infinity, sign?_zero] <;> rfl

theorem Unsigned.sqrt (hx : Unsigned x) : Unsigned x.sqrt := by
  rw [Unsigned, sqrt_eq_ofView, sign?_view_ofView]
  rw [Unsigned] at hx
  cases hvx : view x <;> rw [hvx] at hx <;> cases hx <;>
    simp only [UnpackedFloat.sqrt, sign?_roundWithAccuracy, sign?_infinity, sign?_zero]

end VirtualMarket.Double
