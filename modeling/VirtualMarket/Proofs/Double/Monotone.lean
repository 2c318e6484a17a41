/-
VirtualMarket.Proofs.Double.Monotone — operations on doubles keep order.

Rounding keeps the order of reals, so what is monotone for reals is so for doubles,
to the last bit: a positive double plus more is no less, times more no less, and minus
more no more.  A zero takes part in this with either sign.  Nothing is claimed of how
far apart the results are; doubles that differ may well give the same.
-/
import VirtualMarket.Proofs.Double.Difference

namespace VirtualMarket.Double

open Float.Model
open Float.Model.UnpackedFloat

variable {x y a b : Float}

/-! ## Finite doubles that are not negative -/

theorem real_of_zero {s : Sign} (hv : view x = .zero s) : real x = 0 := by
  rw [real, value, hv]
  rfl

/-- What is finite and not negative is zero or positive. -/
theorem zero_or_positive (h : 0 ≤ x) (hf : x.isFinite = true) :
    (∃ s, view x = .zero s) ∨ Positive x := by
  refine (nonneg_cases h).resolve_left fun hv => ?_
  change (view x).isFinite = true at hf
  rw [hv] at hf
  cases hf

theorem value_eq_real (h : 0 ≤ x) (hf : x.isFinite = true) : value x = (real x : ℝ) := by
  rcases zero_or_positive h hf with ⟨s, hv⟩ | hx
  · rw [real_of_zero hv, value, hv]
    rfl
  · exact hx.value_eq

/-- What lies between zero and a finite double is finite. -/
theorem isFinite_of_le (h : 0 ≤ x) (hle : x ≤ y) (hf : y.isFinite = true) :
    x.isFinite = true := by
  rcases nonneg_cases h with hv | ⟨s, hv⟩ | hx
  · have hvalue := (le_iff.mp hle).2.2
    rw [value_eq_real (Double.le_trans h hle) hf, value, hv] at hvalue
    exact absurd hvalue (not_le.mpr (EReal.coe_lt_top _))
  · change (view x).isFinite = true
    rw [hv]
    rfl
  · exact (positive_iff.mp hx).2

theorem real_nonneg (h : 0 ≤ x) (hf : x.isFinite = true) : 0 ≤ real x := by
  rcases zero_or_positive h hf with ⟨s, hv⟩ | hx
  · exact (real_of_zero hv).ge
  · exact hx.real_pos.le

theorem real_le_real (h : 0 ≤ x) (hle : x ≤ y) (hf : y.isFinite = true) : real x ≤ real y := by
  have hvalue := (le_iff.mp hle).2.2
  rwa [value_eq_real h (isFinite_of_le h hle hf), value_eq_real (Double.le_trans h hle) hf,
    EReal.coe_le_coe_iff] at hvalue

/-! ## Sums and differences -/

section

variable (hx : Positive x) (ha : 0 ≤ a)
include hx ha

/-- A sum rounds the real sum, a zero of either sign included. -/
theorem Positive.add_rounds_nonneg (hf : a.isFinite = true) :
    ∃ u, x + a = ofView u ∧ sign? u = some .positive ∧ Rounds (real x + real a) u := by
  rcases zero_or_positive ha hf with ⟨s, hv⟩ | ha
  · refine ⟨view x, ?_, hx.unsigned, ?_⟩
    · obtain ⟨m, e, hm, hvx⟩ := hx
      rw [add_eq_ofView, hvx, hv]
      rfl
    · have hreal : real x + real a = real x := by simp [real_of_zero hv]
      rw [hreal]
      exact hx.rounds
  · exact hx.add_rounds ha

/-- A difference that is not zero rounds the real difference, a zero of either sign
included. -/
theorem Positive.sub_rounds_nonneg (hf : a.isFinite = true) (h : real a < real x) :
    ∃ u, x - a = ofView u ∧ sign? u = some .positive ∧ Rounds (real x - real a) u := by
  rcases zero_or_positive ha hf with ⟨s, hv⟩ | ha
  · refine ⟨view x, ?_, hx.unsigned, ?_⟩
    · obtain ⟨m, e, hm, hvx⟩ := hx
      rw [sub_eq_ofView, hvx, hv]
      rfl
    · rw [real_of_zero hv, sub_zero]
      exact hx.rounds
  · obtain ⟨u, hu, hs, hr, -⟩ := hx.sub_rounds ha h
    exact ⟨u, hu, hs, hr⟩

/-- More added to a positive double gives no less. -/
theorem Positive.add_le_add (h : a ≤ b) (hf : b.isFinite = true) : x + a ≤ x + b := by
  obtain ⟨u, hu, hs, hr⟩ := hx.add_rounds_nonneg ha (isFinite_of_le ha h hf)
  obtain ⟨u', hu', hs', hr'⟩ := hx.add_rounds_nonneg (Double.le_trans ha h) hf
  have hpos : 0 < real x + real a :=
    add_pos_of_pos_of_nonneg hx.real_pos (real_nonneg ha (isFinite_of_le ha h hf))
  rw [hu, hu']
  exact ofView_le_ofView hr hs hr' hs' hpos (add_le_add_right (real_le_real ha h hf) _)

end

/-- A positive double less itself is zero, to the last bit. -/
theorem Positive.sub_self (hx : Positive x) : x - x = 0 := by
  obtain ⟨m, e, hm, hv⟩ := hx
  have hcancel : UnpackedFloat.sub .binary64 (.finite .positive m e hm) (.finite .positive m e hm)
      = .zero .positive := by
    simp [UnpackedFloat.sub, UnpackedFloat.normalize]
  rw [sub_eq_ofView, hv, hcancel]
  rfl

section

variable (hx : Positive x) (ha : 0 ≤ a)
include hx ha

/-- A positive double less what is no more than itself is a difference of reals that is
rounded, or zero. -/
theorem Positive.sub_cases (h : a ≤ x) :
    (∃ u, x - a = ofView u ∧ sign? u = some .positive ∧ Rounds (real x - real a) u ∧
      real a < real x) ∨ x - a = 0 := by
  have hf := (positive_iff.mp hx).2
  have hfa := isFinite_of_le ha h hf
  rcases (real_le_real ha h hf).eq_or_lt with heq | hlt
  · have hbeq : (a == x) = true :=
      beq_iff.mpr ⟨(Double.le_iff.mp h).1, (Double.le_iff.mp h).2.1, by
        rw [value_eq_real ha hfa, hx.value_eq, heq]⟩
    rw [hx.eq_of_beq hbeq]
    exact .inr hx.sub_self
  · obtain ⟨u, hu, hs, hr⟩ := hx.sub_rounds_nonneg ha hfa hlt
    exact .inl ⟨u, hu, hs, hr, hlt⟩

/-- What is no more than a positive double leaves something that is not negative. -/
theorem Positive.sub_nonneg (h : a ≤ x) : 0 ≤ x - a := by
  rcases hx.sub_cases ha h with ⟨u, hu, hs, -⟩ | h0
  · rw [hu]
    exact (unsigned_ofView hs).nonneg
  · rw [h0]
    exact Double.le_refl rfl

/-- More taken from a positive double leaves no more. -/
theorem Positive.sub_le_sub (h : a ≤ b) (hb : b ≤ x) : x - b ≤ x - a := by
  rcases hx.sub_cases (Double.le_trans ha h) hb with ⟨u, hu, hs, hr, hlt⟩ | h0
  · have hf := isFinite_of_le (Double.le_trans ha h) hb (positive_iff.mp hx).2
    have hle := real_le_real ha h hf
    obtain ⟨u', hu', hs', hr'⟩ :=
      hx.sub_rounds_nonneg ha (isFinite_of_le ha h hf) (hle.trans_lt hlt)
    rw [hu, hu']
    exact ofView_le_ofView hr hs hr' hs' (by linarith) (by linarith)
  · rw [h0]
    exact hx.sub_nonneg ha (Double.le_trans h hb)

end

/-! ## Products -/

protected theorem mul_comm (x y : Float) : x * y = y * x := by
  have hsign (s s' : Sign) : s * s' = s' * s := by cases s <;> cases s' <;> rfl
  rw [mul_eq_ofView, mul_eq_ofView]
  congr 1
  cases view x <;> cases view y <;>
    simp only [UnpackedFloat.mul, hsign, Nat.mul_comm, Int.add_comm]

/-- Of what is not negative a zero of either sign is the least. -/
theorem le_of_zero {s : Sign} (hv : view x = .zero s) (hy : 0 ≤ y) : x ≤ y := by
  obtain ⟨-, hnan, hle⟩ := le_iff.mp hy
  refine le_iff.mpr ⟨isNaN_eq_false_iff.mpr (by simp [hv]), hnan, ?_⟩
  rw [value, hv]
  exact hle

theorem Positive.view_mul_zero {s : Sign} (hx : Positive x) (ha : view a = .zero s) :
    view (x * a) = .zero s := by
  obtain ⟨m, e, hm, hv⟩ := hx
  rw [mul_eq_ofView, hv, ha]
  cases s <;> exact view_ofView_zero _

section

variable (hx : Positive x) (ha : 0 ≤ a)
include hx ha

/-- A positive double times more is no less. -/
theorem Positive.mul_le_mul (h : a ≤ b) (hf : b.isFinite = true) : x * a ≤ x * b := by
  have hb := Double.le_trans ha h
  rcases zero_or_positive ha (isFinite_of_le ha h hf) with ⟨s, hv⟩ | hpos
  · exact le_of_zero (hx.view_mul_zero hv) (hx.mul_nonneg hb)
  · have hposb : Positive b :=
      positive_iff.mpr ⟨Double.lt_of_lt_of_le (positive_iff.mp hpos).1 h, hf⟩
    obtain ⟨u, hu, hs, hr⟩ := hx.mul_rounds hpos
    obtain ⟨u', hu', hs', hr'⟩ := hx.mul_rounds hposb
    rw [hu, hu']
    refine ofView_le_ofView hr hs hr' hs' (mul_pos hx.real_pos hpos.real_pos) ?_
    exact mul_le_mul_of_nonneg_left (real_le_real ha h hf) hx.real_pos.le

/-- A positive double times what is no more than one is no more than itself. -/
theorem Positive.mul_le_self (h : a ≤ 1) : x * a ≤ x := by
  have hle := hx.mul_le_mul ha h rfl
  rwa [hx.mul_one] at hle

end

end VirtualMarket.Double
