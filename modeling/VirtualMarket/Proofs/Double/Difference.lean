/-
VirtualMarket.Proofs.Double.Difference — sums and differences of doubles of any
sign.

Nothing infinite comes back: a finite sum or difference has finite operands.  Of
the two zeros the negative one hardly ever comes out; a sum is `-0` only if both
terms are, and a difference only if `0` was taken from `-0`.  Away from that
zero the laws that one expects of subtraction hold to the last bit.
-/
import VirtualMarket.Proofs.Double.Product

namespace VirtualMarket.Double

open Float.Model
open Float.Model.UnpackedFloat

variable {x y : Float} {u v : UnpackedFloat}

/-! ## Subtraction as addition -/

/-- Subtracting parts is adding the opposite. -/
theorem sub_view_eq_add_neg (u v : UnpackedFloat) :
    UnpackedFloat.sub .binary64 u v = UnpackedFloat.add .binary64 u v.neg := by
  cases u <;> cases v
  case finite.finite s m e h s' m' e' h' =>
    cases s' with
    | positive => rfl
    | negative => exact congrArg (normalize .binary64 · (min e e') .positive) (sub_neg_eq_add ..)
  all_goals rfl

protected theorem sub_eq_add_neg (x y : Float) : x - y = x + -y := by
  rw [sub_eq_ofView, add_eq_ofView, view_neg, sub_view_eq_add_neg]

/-- Subtraction of smaller positive parts rounds the real difference, which is at
least one step at the least exponent. -/
theorem rounds_sub {m m' : Nat} {e e' : Int} (h : 0 < m) (h' : 0 < m') (he : -1074 ≤ e)
    (he' : -1074 ≤ e') (hlt : dyadic m' e' < dyadic m e) :
    let u := UnpackedFloat.sub .binary64 (.finite .positive m e h) (.finite .positive m' e' h')
    Rounds (dyadic m e - dyadic m' e') u ∧ sign? u = some .positive ∧
      2 ^ (-1074 : ℤ) ≤ dyadic m e - dyadic m' e' := by
  intro u
  set t := min e e' with ht
  set k := m <<< (e - t).toNat with hk
  set k' := m' <<< (e' - t).toNat with hk'
  have hd : dyadic m e = dyadic k t := (dyadic_align m (min_le_left e e')).symm
  have hd' : dyadic m' e' = dyadic k' t := (dyadic_align m' (min_le_right e e')).symm
  have hp : (0 : ℝ) < 2 ^ t := by positivity
  have hkk : k' < k := by
    rw [hd, hd', dyadic, dyadic] at hlt
    exact_mod_cast lt_of_mul_lt_mul_right hlt hp.le
  -- at the smaller exponent the mantissas are subtracted exactly
  have hdiff : dyadic m e - dyadic m' e' = dyadic (k - k') t := by
    rw [hd, hd', dyadic, dyadic, dyadic, Nat.cast_sub hkk.le]
    ring
  have hu : u = UnpackedFloat.round .binary64 .positive (k - k') t := by
    change UnpackedFloat.normalize .binary64 ((k : Int) - k') t .positive = _
    rw [UnpackedFloat.normalize, compare_gt_iff_gt.mpr (by omega : (0 : Int) < k - k')]
    exact congrArg (UnpackedFloat.round .binary64 .positive · t) (by omega)
  rw [hu, hdiff]
  refine ⟨rounds_round .positive (by omega) t, sign?_roundWithAccuracy .., ?_⟩
  have hone : (1 : ℝ) ≤ (k - k' : ℕ) := by
    exact_mod_cast (show 1 ≤ k - k' by omega)
  calc (2 : ℝ) ^ (-1074 : ℤ) ≤ 2 ^ t := zpow_le_zpow_right₀ (by norm_num) (by omega)
    _ ≤ (k - k' : ℕ) * 2 ^ t := le_mul_of_one_le_left hp.le hone

theorem Positive.sub_rounds (hx : Positive x) (hy : Positive y) (h : real y < real x) :
    ∃ u, x - y = ofView u ∧ sign? u = some .positive ∧ Rounds (real x - real y) u ∧
      2 ^ (-1074 : ℤ) ≤ real x - real y := by
  obtain ⟨m, e, hm, hvx⟩ := hx
  obtain ⟨m', e', hm', hvy⟩ := hy
  rw [real_of_view hvx, real_of_view hvy] at h ⊢
  obtain ⟨hr, hs, hlow⟩ :=
    rounds_sub hm hm' (onGrid_of_view hvx).1.low (onGrid_of_view hvy).1.low h
  exact ⟨_, by rw [sub_eq_ofView, hvx, hvy], hs, hr, hlow⟩

/-! ## Positive results -/

/-- Only a positive mantissa is normalized to a positive double. -/
theorem pos_of_positive_normalize {k e : Int}
    (h : Positive (ofView (UnpackedFloat.normalize .binary64 k e .positive))) : 0 < k := by
  have hs := h.unsigned
  rw [Unsigned, sign?_view_ofView] at hs
  unfold UnpackedFloat.normalize at h hs
  rcases lt_trichotomy k 0 with hk | rfl | hk
  · rw [compare_lt_iff_lt.mpr hk] at hs
    simp [UnpackedFloat.round] at hs
  · obtain ⟨m, e, hm, hv⟩ := h
    cases (view_ofView_zero .positive).symm.trans hv
  · exact hk

/-- Of two positive doubles the first is larger if the difference is positive. -/
theorem Positive.lt_of_sub (hx : Positive x) (hy : 0 < y) (h : Positive (x - y)) : y < x := by
  obtain ⟨m, e, hm, hvx⟩ := hx
  rcases pos_cases hy with hvy | ⟨m', e', hm', hvy⟩
  · obtain ⟨n, f, hn, hv⟩ := h
    rw [sub_eq_ofView, hvx, hvy] at hv
    cases (view_ofView_infinity .negative).symm.trans hv
  · rw [sub_eq_ofView, hvx, hvy] at h
    set t := min e e' with ht
    -- at the smaller exponent the mantissas are compared
    have hk : ((m' <<< (e' - t).toNat : ℕ) : ℤ) < (m <<< (e - t).toNat : ℕ) :=
      Int.lt_of_sub_pos (pos_of_positive_normalize h)
    have hlt : dyadic m' e' < dyadic m e := by
      rw [← dyadic_align m (min_le_left e e'), ← dyadic_align m' (min_le_right e e')]
      exact mul_lt_mul_of_pos_right (by exact_mod_cast hk) (by positivity)
    have hx : Positive x := ⟨m, e, hm, hvx⟩
    have hy : Positive y := ⟨m', e', hm', hvy⟩
    rw [← real_of_view hvx, ← real_of_view hvy] at hlt
    exact Double.lt_of_not_le hy.unsigned.isNaN hx.unsigned.isNaN fun hle =>
      not_lt.mpr ((hx.le_iff hy).mp hle) hlt

/-! ## Finite results -/

/-- Packing makes nothing finite. -/
theorem isFinite_of_ofView (h : (ofView u).isFinite = true) : u.isFinite = true := by
  change (view (ofView u)).isFinite = true at h
  cases u with
  | notANumber => rwa [view_ofView_notANumber] at h
  | infinity s => rwa [view_ofView_infinity] at h
  | zero s | finite s => rfl

theorem isFinite_of_add_view (h : (UnpackedFloat.add .binary64 u v).isFinite = true) :
    u.isFinite = true ∧ v.isFinite = true := by
  cases u <;> cases v
  case infinity.infinity s s' => cases s <;> cases s' <;> cases h
  all_goals first | exact ⟨rfl, rfl⟩ | cases h

theorem isFinite_of_add (h : (x + y).isFinite = true) :
    x.isFinite = true ∧ y.isFinite = true :=
  isFinite_of_add_view (isFinite_of_ofView h)

theorem isFinite_neg (x : Float) : (-x).isFinite = x.isFinite := by
  change (view (-x)).isFinite = (view x).isFinite
  rw [view_neg]
  cases view x <;> rfl

theorem isFinite_of_sub (h : (x - y).isFinite = true) :
    x.isFinite = true ∧ y.isFinite = true := by
  rw [Double.sub_eq_add_neg] at h
  have hf := isFinite_of_add h
  rwa [isFinite_neg] at hf

/-! ## The negative zero -/

/-- What is greater than zero is neither zero. -/
theorem view_ne_zero (h : 0 < x) (s : Sign) : view x ≠ .zero s := by
  rcases pos_cases h with hv | ⟨m, e, hm, hv⟩ <;> rw [hv] <;> exact nofun

/-- Parts on the grid are not packed to a zero. -/
theorem view_ofView_ne_zero (s s' : Sign) {m : Nat} {e : Int} (h : 0 < m) (hg : OnGrid m e) :
    view (ofView (.finite s m e h)) ≠ .zero s' := by
  by_cases he : e ≤ 971
  · rw [view_ofView_finite s h hg he]
    exact nofun
  · rw [view_ofView_overflow s h (by omega)]
    exact nofun

/-- Rounding makes no zero of a mantissa at an exponent that doubles can have. -/
theorem view_round_ne_zero (s s' : Sign) {m : Nat} (h : 0 < m) {e : Int} (he : -1074 ≤ e) :
    view (ofView (UnpackedFloat.round .binary64 s m e)) ≠ .zero s' := by
  have hm : (2 : ℝ) ^ (-1074 : ℤ) ≤ dyadic m e := by
    calc (2 : ℝ) ^ (-1074 : ℤ) ≤ 2 ^ e := zpow_le_zpow_right₀ (by norm_num) he
      _ ≤ dyadic m e := le_mul_of_one_le_left (by positivity) (by exact_mod_cast h)
  have hr := rounds_round s h e
  generalize UnpackedFloat.round .binary64 s m e = u at hr
  cases hr with
  | zero s h0 =>
    have hmin := two_zpow_le_rounded (le_refl _) hm
    rw [h0] at hmin
    exact absurd hmin (not_le.mpr (by positivity))
  | finite s hm hg => exact view_ofView_ne_zero _ _ hm hg

/-- What cancels leaves the positive zero. -/
theorem view_normalize_ne (k : Int) {e : Int} (he : -1074 ≤ e) :
    view (ofView (UnpackedFloat.normalize .binary64 k e .positive)) ≠ .zero .negative := by
  unfold UnpackedFloat.normalize
  rcases lt_trichotomy k 0 with h | rfl | h
  · rw [compare_lt_iff_lt.mpr h]
    exact view_round_ne_zero _ _ (by omega) he
  · change view (ofView (.zero .positive)) ≠ _
    simp
  · rw [compare_gt_iff_gt.mpr h]
    exact view_round_ne_zero _ _ (by omega) he

/-- A sum is `-0` only if both of its terms are. -/
theorem zeros_of_add (h : view (x + y) = .zero .negative) :
    view x = .zero .negative ∧ view y = .zero .negative := by
  rw [add_eq_ofView] at h
  cases hx : view x <;> cases hy : view y <;> rw [hx, hy] at h
  case finite.finite s m e hm s' m' e' hm' =>
    have hlow := (onGrid_of_view hx).1.low
    have hlow' := (onGrid_of_view hy).1.low
    exact absurd h (view_normalize_ne _ (le_min hlow hlow'))
  case finite.zero => exact absurd h (view_ofView_ne_zero _ _ _ (onGrid_of_view hx).1)
  case zero.finite => exact absurd h (view_ofView_ne_zero _ _ _ (onGrid_of_view hy).1)
  case zero.zero s s' => cases s <;> cases s' <;> simp [UnpackedFloat.add] at h ⊢
  case infinity.infinity s s' =>
    cases s <;> cases s' <;> simp [UnpackedFloat.add, view_ofView_notANumber] at h
  all_goals simp [UnpackedFloat.add, view_ofView_notANumber] at h

/-- A difference is `-0` only if `0` was taken from `-0`. -/
theorem zeros_of_sub (h : view (x - y) = .zero .negative) :
    view x = .zero .negative ∧ view y = .zero .positive := by
  rw [Double.sub_eq_add_neg] at h
  obtain ⟨hx, hy⟩ := zeros_of_add h
  refine ⟨hx, ?_⟩
  rw [view_neg] at hy
  cases hv : view y with
  | zero s => cases s <;> simp [hv, UnpackedFloat.neg] at hy ⊢
  | _ => simp [hv, UnpackedFloat.neg] at hy

/-! ## Laws of subtraction -/

protected theorem sub_zero (x : Float) : x - 0 = x := by
  rw [sub_eq_ofView, ← ofView_view x]
  congr 1
  rw [ofView_view, show view 0 = .zero .positive from rfl]
  cases view x with
  | zero s => cases s <;> rfl
  | _ => rfl

protected theorem add_zero (h : view x ≠ .zero .negative) : x + 0 = x := by
  rw [add_eq_ofView, ← ofView_view x]
  congr 1
  rw [ofView_view, show view 0 = .zero .positive from rfl]
  cases hx : view x with
  | zero s =>
    cases s with
    | positive => rfl
    | negative => exact absurd hx h
  | _ => rfl

theorem Positive.add_zero (hx : Positive x) : x + 0 = x :=
  Double.add_zero (view_ne_zero (positive_iff.mp hx).1 _)

theorem Positive.zero_add (hx : Positive x) : 0 + x = x := by
  rw [Double.add_comm, hx.add_zero]

/-- Taking from zero and adding afterwards is taking from what is added. -/
theorem zero_sub_add (h : view x ≠ .zero .negative) (y : Float) : 0 - y + x = x - y := by
  have hneg : view y ≠ .zero .positive → view y ≠ .zero .negative → 0 - y = -y := by
    intro hp hn
    rw [sub_eq_ofView, ← ofView_view (-y), view_neg, show view 0 = .zero .positive from rfl]
    congr 1
    cases hy : view y with
    | zero s => cases s <;> simp [hy] at hp hn
    | _ => rfl
  by_cases hp : view y = .zero .positive
  · obtain rfl : y = 0 := eq_of_view hp
    rw [Double.sub_zero, Double.sub_zero, Double.add_comm, Double.add_zero h]
  · by_cases hn : view y = .zero .negative
    · obtain rfl : y = -0 := eq_of_view hn
      rw [Double.sub_eq_add_neg x]
      exact (Double.add_comm _ _).trans rfl
    · rw [hneg hp hn, Double.add_comm, ← Double.sub_eq_add_neg]

end VirtualMarket.Double
